import Peal.Library.Encoding
import Peal.Auction.Market

namespace Peal.Auction
open Peal.Fallible Peal.Runs Peal.Encoding SealedBidAuction

/-! # What the factory lists, and what stands behind each listing -/

/-- The event tells of the auction what its storage says, and its label is the one the auction is bound to. -/
structure Describes (site : Site) (n : Nat) (log : AuctionCreated) (d : Deployed) : Prop where
  auction : log.auction = site.clone n
  issuer : log.issuer = d.auction.config.issuer
  tokens : log.saleToken = d.auction.config.saleToken ∧ log.quoteToken = d.auction.config.quoteToken
  totalSupply : log.totalSupply = d.auction.config.totalSupply
  window : log.startTime = d.auction.config.startTime ∧ log.endTime = d.auction.config.endTime
  label : d.metadataHash = metadataHash site.env.keccak256 log.name log.useCase log.details

/-- The four indices of the factory agree, with one entry for each clone. -/
structure Listed (site : Site) (m : Market) : Prop where
  auctions : m.factory.auctions = (List.range m.deployed.length).map site.clone
  isAuction : ∀ a, m.factory.isAuction a = true ↔ a ∈ m.factory.auctions
  byIssuer : ∀ issuer, m.factory.byIssuer issuer =
    (m.factory.logs.filter fun log => log.issuer = issuer).map AuctionCreated.auction
  logged : m.factory.logs.length = m.deployed.length
  described : ∀ n d, m.deployed[n]? = some d → ∃ log, m.factory.logs[n]? = some log ∧ Describes site n log d

section Steps

variable {site : Site} {m m' : Market}

lemma Listed.distinct (h : Listed site m) : m.factory.auctions.Nodup := by
  rw [h.auctions]
  exact List.nodup_range.map site.clone_injective

lemma listed_same (h : Listed site m) (hfactory : m'.factory = m.factory)
    (hlength : m'.deployed.length = m.deployed.length)
    (hsame : ∀ (n : Nat) (d : Deployed), m'.deployed[n]? = some d → ∃ d₀ : Deployed, m.deployed[n]? = some d₀ ∧
      d.auction.config = d₀.auction.config ∧ d.metadataHash = d₀.metadataHash) : Listed site m' := by
  refine ⟨by rw [hfactory, hlength]; exact h.auctions, by rw [hfactory]; exact h.isAuction,
    by rw [hfactory]; exact h.byIssuer, by rw [hfactory, hlength]; exact h.logged, fun n d hd => ?_⟩
  obtain ⟨d₀, hd₀, hcfg, hhash⟩ := hsame n d hd
  obtain ⟨log, hlog, hdescribes⟩ := h.described n d₀ hd₀
  rw [hfactory]
  refine ⟨log, hlog, hdescribes.auction, ?_, ?_, ?_, ?_, ?_⟩
  · rw [hcfg]
    exact hdescribes.issuer
  · rw [hcfg]
    exact hdescribes.tokens
  · rw [hcfg]
    exact hdescribes.totalSupply
  · rw [hcfg]
    exact hdescribes.window
  · rw [hhash]
    exact hdescribes.label

lemma listed_creation (h : Listed site m) {caller : Caller site} {c : Creation} {a : SealedBidAuction} {sale : ERC20}
    {w : World} (hcreates : Creates site m caller c m' a sale w) : Listed site m' := by
  have hlogs : m'.factory.logs = m.factory.logs ++ [⟨site.clone m.deployed.length, caller.sender, c.cfg.saleToken,
      c.cfg.quoteToken, c.cfg.totalSupply, c.cfg.startTime, c.cfg.endTime, c.name, c.useCase, c.details⟩] := by
    rw [hcreates.next]
    rfl
  have hdeployed : m'.deployed = m.deployed ++ [⟨w.auction, c.metadataHash⟩] := by rw [hcreates.next]
  have hauctions : m'.factory.auctions = m.factory.auctions ++ [site.clone m.deployed.length] := by
    rw [hcreates.next]
    rfl
  refine ⟨?_, fun x => ?_, fun issuer => ?_, ?_, fun n d hd => ?_⟩
  · rw [hauctions, hdeployed, h.auctions, List.length_append, List.length_singleton, List.range_succ, List.map_append,
      List.map_singleton]
  · have his : m'.factory.isAuction = Function.update m.factory.isAuction (site.clone m.deployed.length) true := by
      rw [hcreates.next]
      rfl
    rw [his, hauctions, List.mem_append, List.mem_singleton, ← h.isAuction]
    by_cases hx : x = site.clone m.deployed.length
    · rw [hx, Function.update_self]
      exact ⟨fun _ => .inr rfl, fun _ => rfl⟩
    · rw [Function.update_of_ne hx]
      exact ⟨.inl, fun hor => hor.resolve_right hx⟩
  · have hby : m'.factory.byIssuer = Function.update m.factory.byIssuer caller.sender
        (m.factory.byIssuer caller.sender ++ [site.clone m.deployed.length]) := by
      rw [hcreates.next]
      rfl
    rw [hby, hlogs, List.filter_append, List.map_append, List.filter_cons, List.filter_nil]
    by_cases hissuer : issuer = caller.sender
    · rw [hissuer, Function.update_self, h.byIssuer, if_pos (decide_eq_true rfl)]
      rfl
    · rw [Function.update_of_ne hissuer, h.byIssuer, if_neg (by simpa using Ne.symm hissuer), List.map_nil,
        List.append_nil]
  · rw [hlogs, hdeployed, List.length_append, List.length_append, h.logged]
    rfl
  · rw [hdeployed] at hd
    rw [hlogs]
    by_cases hlt : n < m.deployed.length
    · rw [List.getElem?_append_left hlt] at hd
      obtain ⟨log, hlog, hdescribes⟩ := h.described n d hd
      exact ⟨log, (List.getElem?_append_left (h.logged ▸ hlt)).trans hlog, hdescribes⟩
    · have hgrown := (List.getElem?_eq_some_iff.mp hd).1
      rw [List.length_append, List.length_singleton] at hgrown
      obtain rfl : n = m.deployed.length := by omega
      rw [List.getElem?_concat_length, Option.some.injEq] at hd
      subst hd
      rw [← h.logged, List.getElem?_concat_length, h.logged]
      refine ⟨_, rfl, rfl, ?_, ?_, ?_, ?_, hcreates.label⟩
      · exact hcreates.issuer.symm.trans (congrArg Config.issuer hcreates.config).symm
      · rw [hcreates.config]
        exact ⟨rfl, rfl⟩
      · rw [hcreates.config]
      · rw [hcreates.config]
        exact ⟨rfl, rfl⟩

theorem listed_step {e : Caller site × MarketCall} (h : Listed site m) (hstep : m.step site e = .ok m') :
    Listed site m' := by
  obtain ⟨caller, e⟩ := e
  have hquiet (hfactory : m'.factory = m.factory) (hdeployed : m'.deployed = m.deployed) : Listed site m' :=
    listed_same h hfactory (congrArg List.length hdeployed) fun n d hd => ⟨d, hdeployed ▸ hd, rfl, rfl⟩
  cases e with
  | createAuction c =>
    obtain ⟨a, sale, w, hcreates⟩ := createAuction_ok hstep
    exact listed_creation h hcreates
  | call j c =>
    obtain ⟨d₀, w, hserves⟩ := call_ok hstep
    refine listed_same h (by rw [hserves.next]; rfl) (deployed_length hstep nofun) fun n d hd => ?_
    rw [hserves.next] at hd
    by_cases hj : j = n
    · subst hj
      have hset : (m.put j d₀ w).deployed[j]? = some { d₀ with auction := w.auction } :=
        List.getElem?_set_self (List.getElem?_eq_some_iff.mp hserves.found).1
      obtain rfl := Option.some.inj (hd.symm.trans hset)
      exact ⟨d₀, hserves.found, hserves.config, rfl⟩
    · have hset : (m.put j d₀ w).deployed[n]? = m.deployed[n]? := List.getElem?_set_ne hj
      exact ⟨d, hset.symm.trans hd, rfl, rfl⟩
  | registerCommitteeSet threshold members =>
    obtain ⟨registry, -, rfl⟩ := registered_ok hstep
    exact hquiet rfl rfl
  | approve token spender amount | mint token recipient amount =>
    obtain rfl := Except.ok.inj hstep
    exact hquiet rfl rfl
  | transfer token recipient amount | transferFrom token sender recipient amount =>
    simp only [Market.step, bind_eq_ok, Except.ok.injEq] at hstep
    obtain ⟨t, -, rfl⟩ := hstep
    exact hquiet rfl rfl

lemma Market.Launched.listed (h : m.Launched site) : Listed site m := by
  constructor
  · rw [h.factory, h.deployed]
    rfl
  · intro a
    rw [h.factory]
    exact iff_of_false Bool.false_ne_true List.not_mem_nil
  · intro issuer
    rw [h.factory]
    rfl
  · rw [h.factory, h.deployed]
    rfl
  · intro n d hd
    rw [h.deployed] at hd
    cases hd

lemma Listed.exec (h : Listed site m) (calls : List (Caller site × MarketCall)) :
    Listed site (exec (Market.step site) m calls) :=
  exec_invariant (Market.step site) (fun _ _ _ h hstep => listed_step h hstep) h calls

end Steps

/-! ## What stands behind a listing -/

lemma exec_own {site : Site} {m : Market} {n : Nat} {d : Deployed} (caller : Caller site)
    (htokens : d.auction.config.saleToken ≠ d.auction.config.quoteToken) (hd : m.deployed[n]? = some d) {cs : List Call}
    (hown : ∀ c ∈ cs, c.own = true) :
    ∃ d', (exec (Market.step site) m (cs.map fun c => (caller, .call n c))).deployed[n]? = some d' ∧
      exec (step (site.auction n)) (m.world d.auction) (cs.map fun c => (caller.msg n, c)) =
        (exec (Market.step site) m (cs.map fun c => (caller, .call n c))).world d'.auction := by
  induction cs generalizing m d with
  | nil => exact ⟨d, hd, rfl⟩
  | cons c cs ih =>
    obtain ⟨d₁, hd₁, hcfg, -, hnext⟩ := call_mirrors htokens hd caller (hown c List.mem_cons_self)
    obtain ⟨d', hd', hrest⟩ := ih (by rwa [hcfg]) hd₁ fun c' hc' => hown c' (List.mem_cons_of_mem c hc')
    refine ⟨d', hd', ?_⟩
    rw [List.map_cons, exec_cons, hnext]
    exact hrest

lemma own_of_ofAuction {c : Call} (h : c.ofAuction) : c.own = true := by
  cases c with
  | registerCommitteeSet | elsewhere => exact h.elim
  | _ => rfl

/-- The auction was funded, holds the sale tokens it owes, and past its deadlines any account can bring it to an end
that pays every bid, unless it is settled. -/
structure Behind (site : Site) (m : Market) (n : Nat) (d : Deployed) : Prop where
  funded : d.auction.state ≠ .created
  covered : d.auction.saleOwed ≤ (m.erc20 d.auction.config.saleToken).balanceOf (site.clone n)
  exit : d.auction.state ≠ .settled → d.auction.bids ≠ [] → ∃ exit : List Call, (∀ c ∈ exit, c.own = true) ∧
    ∀ caller : Caller site, d.auction.config.endTime ≤ caller.timestamp →
      d.auction.config.revealDeadline ≤ caller.timestamp →
        ∃ d', (exec (Market.step site) m (exit.map fun c => (caller, .call n c))).deployed[n]? = some d' ∧
          Ended (site.auction n) ((exec (Market.step site) m (exit.map fun c => (caller, .call n c))).world d'.auction)

lemma RunsAlone.behind {site : Site} {m : Market} {n : Nat} {d : Deployed} {own : List (Msg (site.auction n) × Call)}
    (h : RunsAlone site n m d own) (hkept : m.Kept site) (hd : m.deployed[n]? = some d) : Behind site m n d := by
  have htokens := h.tokens
  obtain ⟨registry, a, sale, quote, calls, ha, -, hexec⟩ := h
  refine ⟨hkept.funded d (List.mem_of_getElem? hd), ?_, fun hs hbids => ?_⟩
  · have hinv : Invariant (site.auction n) (m.world d.auction) := by
      rw [← hexec]
      exact exec_invariant _ (fun _ _ _ hw hstep => step_invariant hw hstep) (invariant_initial ha sale quote).1 calls
    exact hinv.supplied
  · have hopen := exitOpen_of_solvent (site.auction n) ha sale quote calls
    rw [hexec] at hopen
    obtain ⟨exit, hexit, hends⟩ := hopen (fun hsettled => absurd hsettled hs) hbids
    refine ⟨exit, fun c hc => own_of_ofAuction (hexit c hc), fun caller hend hreveal => ?_⟩
    obtain ⟨d', hd', hmirror⟩ := exec_own caller htokens hd fun c hc => own_of_ofAuction (hexit c hc)
    refine ⟨d', hd', ?_⟩
    rw [← hmirror]
    exact hends (caller.msg n) hend hreveal

/-- Whatever happens in a market, the factory's indices agree and describe its auctions, one entry each, and an
auction that is listed is fully backed. -/
theorem listings_backed {site : Site} {m : Market} (hm : m.Launched site) (calls : List (Caller site × MarketCall)) :
    Listed site (exec (Market.step site) m calls) ∧
      ∀ n d, (exec (Market.step site) m calls).deployed[n]? = some d →
        Behind site (exec (Market.step site) m calls) n d := by
  refine ⟨hm.listed.exec calls, fun n d hd => ?_⟩
  obtain ⟨k, caller, c, htraced⟩ := exec_traced hm calls hd
  exact htraced.alone.behind (exec_kept hm calls) hd

theorem listings_backed_sample :
    Listed sampleSite (exec (Market.step sampleSite) sampleMarket sampleMarketCalls) ∧
      ∀ n d, (exec (Market.step sampleSite) sampleMarket sampleMarketCalls).deployed[n]? = some d →
        Behind sampleSite (exec (Market.step sampleSite) sampleMarket sampleMarketCalls) n d :=
  listings_backed sampleMarket_launched sampleMarketCalls

/-! ## Reading the list page by page -/

section Paging

variable {site : Site} {m : Market} {f : AuctionFactory} {offset limit : Nat} {page : List Nat}

lemma auctionsPaged_ok (h : f.auctionsPaged offset limit = .ok page) : page = (f.auctions.drop offset).take limit := by
  unfold AuctionFactory.auctionsPaged at h
  split_ifs at h with hpast
  · rw [← Except.ok.inj h, List.drop_eq_nil_of_le hpast, List.take_nil]
  · simp only [bind_eq_ok, checked_eq_ok] at h
    obtain ⟨stop, ⟨-, rfl⟩, hpage⟩ := h
    rw [← Except.ok.inj hpage]
    refine List.ext_getElem ?_ fun i hi _ => ?_
    · rw [List.length_map, List.length_range, List.length_take, List.length_drop]
      split_ifs <;> omega
    · rw [List.length_map, List.length_range] at hi
      have hin : offset + i < f.auctions.length := by
        split_ifs at hi <;> omega
      rw [List.getElem_map, List.getElem_range, List.getElem_take, List.getElem_drop, List.getD_eq_getElem?_getD,
        List.getElem?_eq_getElem hin, Option.getD_some]

lemma listed_grows (h : Listed site m) (e : Caller site × MarketCall) :
    m.factory.auctions <+: (advance (Market.step site) m e).factory.auctions := by
  refine advance_induct (Market.step site) (P := fun m' => m.factory.auctions <+: m'.factory.auctions)
    (List.prefix_refl _) fun m' hstep => ?_
  rw [h.auctions, (listed_step h hstep).auctions]
  have hlength : m.deployed.length ≤ m'.deployed.length := by
    obtain ⟨caller, e⟩ := e
    cases e with
    | createAuction c =>
      obtain ⟨a, sale, w, hcreates⟩ := createAuction_ok hstep
      rw [hcreates.next, List.length_append]
      exact Nat.le_add_right _ _
    | _ => exact (deployed_length hstep nofun).ge
  obtain ⟨more, hmore⟩ := Nat.exists_eq_add_of_le hlength
  rw [hmore, List.range_add, List.map_append]
  exact List.prefix_append _ _

lemma listed_prefix (h : Listed site m) (calls : List (Caller site × MarketCall)) {t t' : Nat} (ht : t ≤ t') :
    (exec (Market.step site) m (calls.take t)).factory.auctions <+:
      (exec (Market.step site) m (calls.take t')).factory.auctions := by
  obtain ⟨more, rfl⟩ := Nat.exists_eq_add_of_le ht
  rw [List.take_add, exec_append]
  have hlisted := h.exec (calls.take t)
  generalize (calls.drop t).take more = rest
  generalize exec (Market.step site) m (calls.take t) = m₀ at hlisted ⊢
  induction rest generalizing m₀ with
  | nil => exact List.prefix_refl _
  | cons e rest ih =>
    exact (listed_grows hlisted e).trans (ih _ (hlisted.exec [e]))

/-- A reader that asks for page after page while auctions are created in between sees every auction once, in order,
and has seen them all at the first page that is not full. -/
theorem pages_complete (hm : m.Launched site) (calls : List (Caller site × MarketCall)) {moment : Nat → Nat}
    (hmoment : Monotone moment) {limit : Nat} {page : Nat → List Nat} {last : Nat}
    (hread : ∀ k ≤ last, (exec (Market.step site) m (calls.take (moment k))).factory.auctionsPaged (k * limit) limit =
      .ok (page k)) (hfull : ∀ k < last, (page k).length = limit) :
    (List.range (last + 1)).flatMap page =
        (exec (Market.step site) m (calls.take (moment last))).factory.auctions.take ((last + 1) * limit) ∧
      ((page last).length < limit → (List.range (last + 1)).flatMap page =
        (exec (Market.step site) m (calls.take (moment last))).factory.auctions) ∧
      ((List.range (last + 1)).flatMap page).Nodup := by
  have hpage (k : Nat) (hk : k ≤ last) : page k =
      ((exec (Market.step site) m (calls.take (moment k))).factory.auctions.drop (k * limit)).take limit :=
    auctionsPaged_ok (hread k hk)
  -- Later growth changes nothing of a page that was full.
  have hsettled (k : Nat) (hk : k < last) : page k =
      ((exec (Market.step site) m (calls.take (moment last))).factory.auctions.drop (k * limit)).take limit := by
    obtain ⟨more, hmore⟩ := listed_prefix hm.listed calls (hmoment hk.le)
    have hlength := hfull k hk
    rw [hpage k hk.le, List.length_take, List.length_drop] at hlength
    rw [hpage k hk.le, ← hmore]
    by_cases hzero : limit = 0
    · rw [hzero, List.take_zero, List.take_zero]
    · rw [List.drop_append_of_le_length (by omega), List.take_append_of_le_length (by rw [List.length_drop]; omega)]
  have hall (k : Nat) (hk : k ≤ last) : page k =
      ((exec (Market.step site) m (calls.take (moment last))).factory.auctions.drop (k * limit)).take limit := by
    rcases hk.lt_or_eq with hlt | rfl
    · exact hsettled k hlt
    · exact hpage k hk
  have htake (n : Nat) (hn : n ≤ last + 1) : (List.range n).flatMap page =
      (exec (Market.step site) m (calls.take (moment last))).factory.auctions.take (n * limit) := by
    induction n with
    | zero => rw [Nat.zero_mul, List.take_zero, List.range_zero, List.flatMap_nil]
    | succ n ih =>
      rw [List.range_succ, List.flatMap_append, ih (by omega), List.flatMap_singleton, hall n (by omega),
        Nat.succ_mul, List.take_add]
  refine ⟨htake _ le_rfl, fun hshort => ?_, ?_⟩
  · rw [htake _ le_rfl]
    rw [hpage last le_rfl, List.length_take, List.length_drop] at hshort
    refine List.take_of_length_le ?_
    rw [Nat.succ_mul]
    omega
  · rw [htake _ le_rfl]
    exact (hm.listed.exec _).distinct.sublist (List.take_sublist _ _)

end Paging

def samplePage (k : Nat) : List Nat := [[100], [101], []].getD k []

theorem pages_complete_sample :
    (List.range 3).flatMap samplePage =
        (exec (Market.step sampleSite) sampleMarket sampleMarketCalls).factory.auctions ∧
      ((List.range 3).flatMap samplePage).Nodup := by
  have hmoment : Monotone fun k => 1 + 5 * k := fun _ _ h => by
    dsimp only
    omega
  have hread (k : Nat) (hk : k ≤ 2) : (exec (Market.step sampleSite) sampleMarket
      (sampleMarketCalls.take (1 + 5 * k))).factory.auctionsPaged (k * 1) 1 = .ok (samplePage k) := by
    refine toOption_eq_some.mp ?_
    interval_cases k <;> decide +kernel
  have hfull (k : Nat) (hk : k < 2) : (samplePage k).length = 1 := by
    interval_cases k <;> rfl
  obtain ⟨-, hall, hnodup⟩ := pages_complete sampleMarket_launched sampleMarketCalls hmoment hread hfull
  exact ⟨hall Nat.zero_lt_one, hnodup⟩

/-! ## The label of a listing -/

section Labels

variable {a b : Str}

lemma packWord_injective (hlength : a.length = b.length) (h : packWord a = packWord b) : a = b := by
  unfold packWord at h
  have hdigits {s : Str} : ∀ l ∈ (s.map UInt8.toNat ++ List.replicate (32 - s.length) 0).reverse, l < 256 := by
    intro l hl
    rw [List.mem_reverse, List.mem_append, List.mem_map, List.mem_replicate] at hl
    rcases hl with ⟨x, -, rfl⟩ | ⟨-, rfl⟩
    · exact x.toNat_lt
    · decide
  have hpadded := List.reverse_injective (Nat.ofDigits_inj_of_len_eq (by decide) (by simp [hlength]) hdigits hdigits h)
  have hmapped := (List.append_inj hpadded (by rw [List.length_map, List.length_map, hlength])).1
  exact List.map_injective_iff.mpr (fun x y hxy => UInt8.toNat_inj.mp hxy) hmapped

lemma getElem?_chunk (a : Str) (j : Nat) : (chunk a (j / 32))[j % 32]? = a[j]? := by
  unfold chunk
  rw [List.getElem?_take_of_lt (Nat.mod_lt j (by decide)), List.getElem?_drop, Nat.div_add_mod]

lemma wordsOf_injective (hlength : a.length = b.length) (h : wordsOf a = wordsOf b) : a = b := by
  unfold wordsOf at h
  rw [← hlength] at h
  have hwords := List.map_inj_left.mp h
  refine List.ext_getElem? fun j => ?_
  by_cases hj : j < a.length
  · have hword := hwords (j / 32) (List.mem_range.mpr (by omega))
    have hchunk : chunk a (j / 32) = chunk b (j / 32) := by
      refine packWord_injective ?_ hword
      unfold chunk
      rw [List.length_take, List.length_take, List.length_drop, List.length_drop, hlength]
    rw [← getElem?_chunk a j, hchunk, getElem?_chunk]
  · rw [List.getElem?_eq_none (by omega), List.getElem?_eq_none (by omega)]

lemma stringTail_prefixFree : PrefixFree (fun _ => True) stringTail := by
  intro a b _ _ u v h
  obtain ⟨hlength, hrest⟩ := List.cons.inj h
  obtain ⟨hwords, htail⟩ := List.append_inj hrest (by
    unfold wordsOf
    rw [List.length_map, List.length_map, List.length_range, List.length_range, hlength])
  exact ⟨wordsOf_injective hlength hwords, htail⟩

lemma encodeLabel_injective {name useCase details name' useCase' details' : Str}
    (h : encodeLabel name useCase details = encodeLabel name' useCase' details') :
    name = name' ∧ useCase = useCase' ∧ details = details' := by
  have htails := (List.append_inj h rfl).2
  obtain ⟨hname, hrest⟩ := stringTail_prefixFree trivial trivial htails
  obtain ⟨huse, hlast⟩ := stringTail_prefixFree trivial trivial hrest
  exact ⟨hname, huse, stringTail_prefixFree.injective trivial trivial hlast⟩

/-- The label that the factory logged for an auction is the only one that its `metadataHash` admits, whatever has
happened since. -/
theorem label_binds {site : Site} {m : Market} (hm : m.Launched site)
    (hkeccak : Function.Injective site.env.keccak256) (calls : List (Caller site × MarketCall)) {n : Nat} {d : Deployed}
    (hd : (exec (Market.step site) m calls).deployed[n]? = some d) :
    ∃ log, (exec (Market.step site) m calls).factory.logs[n]? = some log ∧ ∀ name useCase details,
      metadataHash site.env.keccak256 name useCase details = d.metadataHash ↔
        name = log.name ∧ useCase = log.useCase ∧ details = log.details := by
  obtain ⟨log, hlog, hdescribes⟩ := (hm.listed.exec calls).described n d hd
  refine ⟨log, hlog, fun name useCase details => ⟨fun h => ?_, ?_⟩⟩
  · exact encodeLabel_injective (hkeccak (h.trans hdescribes.label))
  · rintro ⟨rfl, rfl, rfl⟩
    exact hdescribes.label.symm

theorem label_binds_sample : ∃ (d : Deployed) (log : AuctionCreated),
    (exec (Market.step sampleSite) sampleMarket sampleMarketCalls).factory.logs[1]? = some log ∧
      (metadataHash sampleEnv.keccak256 [1] [2, 0] [] = d.metadataHash ↔
        [1] = log.name ∧ [2, 0] = log.useCase ∧ [] = log.details) := by
  obtain ⟨d, hd⟩ := sampleMarket_second
  obtain ⟨log, hlog, hlabel⟩ :=
    label_binds sampleMarket_launched Peal.SortedPairTree.pairingHash_injective sampleMarketCalls hd
  exact ⟨d, log, hlog, hlabel [1] [2, 0] []⟩

end Labels

end Peal.Auction
