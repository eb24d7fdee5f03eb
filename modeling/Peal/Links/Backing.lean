import Peal.Links.Routes
import Peal.Links.Conservation

namespace Peal.Links
open Peal.Fallible Peal.Runs Peal.Rows Peal.Interleaving Peal.Notes

/-! # What circulates on the ledgers is in the gateway -/

/-! ### The deposits behind the mints -/

def Tx.mint? (tx : Tx) : Option (Namespace × MintEnvelope) :=
  match tx.envelope with
  | .mint env => some (tx.namespaceId, env)
  | _ => none

/-- The mints among the finalized envelopes. -/
def Network.mints (s : Network) : List (Namespace × MintEnvelope) := s.finalized.filterMap Tx.mint?

/-- What the endpoint shows as a deposit of the gateway is one, logged at the place of its id. -/
def Shows (place : Nat → EventId) (chain : Gateway.World) (cfg : NamespaceConfig) (rpc : Rpc) : Prop :=
  ∀ txHash block logs log ev, rpc.transactionLogs txHash = .ok (some (block, logs)) → log ∈ logs →
    toLowercase log.address = toLowercase cfg.gateway → log.removed = false → decodeDeposit log = .ok ev →
    ∃ r ∈ chain.gateway.deposited, place r.id = ⟨cfg.chainId, ev.txHash, ev.logIndex⟩ ∧
      wordAddress ev.token = .ok r.token ∧ r.amount = ev.amount

/-- A validator that is configured with the namespace's token, and sees the chain, approved the mint. -/
def Approves (token : Namespace → Option Nat) (place : Nat → EventId) (chain : Gateway.World)
    (p : Namespace × MintEnvelope) : Prop :=
  ∃ cfg rpc, check cfg rpc p.2 = .ok true ∧ Routed token p.1 (toLowercase cfg.tokenAddress) ∧
    Shows place chain cfg rpc

/-- The two mints do not name one log entry in different ways. -/
def Apart (p q : Namespace × MintEnvelope) : Prop :=
  eventOf p.2.depositId = eventOf q.2.depositId → p.1 = q.1 ∧ p.2.depositId = q.2.depositId

/-- An approved mint is finalized, whose log entry no other mint names in a different way. -/
def Vetted (token : Namespace → Option Nat) (place : Nat → EventId) (s : Network) : Change → Prop
  | .finalize tx => ∀ p ∈ tx.mint?, Approves token place s.chain p ∧ ∀ q ∈ s.mints, Apart q p
  | _ => True

/-- A deposit of the gateway that the mint credits. -/
def Credited (token : Namespace → Option Nat) (place : Nat → EventId) (chain : Gateway.World)
    (p : Namespace × MintEnvelope) : Prop :=
  ∃ r ∈ chain.gateway.deposited, eventOf p.2.depositId = some (place r.id) ∧ r.amount = p.2.intent.amount ∧
    token p.1 = some r.token

/-- Every mint credits a deposit, and no two mints credit one under two names. -/
structure Vouched (token : Namespace → Option Nat) (place : Nat → EventId) (s : Network) : Prop where
  credited : ∀ p ∈ s.mints, Credited token place s.chain p
  apart : ∀ p ∈ s.mints, ∀ q ∈ s.mints, Apart p q

section Deposits

variable {d : Deployment} {token : Namespace → Option Nat} {place : Nat → EventId} {s t : Network}

lemma check_matches {ns : NamespaceConfig} {rpc : Rpc} {env : MintEnvelope} (h : check ns rpc env = .ok true) :
    ∃ txHash block logs log index, eventOf env.depositId = some ⟨ns.chainId, toLowercase txHash, index⟩ ∧
      rpc.transactionLogs txHash = .ok (some (block, logs)) ∧ log ∈ logs ∧
      parseU64 16 (trimHexPrefix log.logIndex) = some index ∧ matchesIntent ns env txHash log = true := by
  unfold check at h
  cases hsplit : splitThree ':' env.depositId with
  | none =>
    rw [hsplit] at h
    cases h
  | some parts =>
    obtain ⟨chain, txHash, logIndex⟩ := parts
    rw [hsplit] at h
    dsimp only at h
    by_cases hchain : parseU64 10 chain = some ns.chainId
    · rw [if_neg (not_not.mpr hchain)] at h
      cases hindex : parseU64 10 logIndex with
      | none =>
        rw [hindex] at h
        cases h
      | some index =>
        rw [hindex] at h
        dsimp only at h
        split_ifs at h
        · cases h
        simp only [bind_eq_ok] at h
        obtain ⟨head, -, answer, hanswer, h⟩ := h
        cases answer with
        | none => cases h
        | some found =>
          obtain ⟨block, logs⟩ := found
          dsimp only at h
          split_ifs at h
          · cases h
          cases hlog : logAt logs index with
          | none =>
            rw [hlog] at h
            cases h
          | some log =>
            rw [hlog] at h
            have hat := List.find?_some hlog
            rw [decide_eq_true_eq] at hat
            exact ⟨txHash, block, logs, log, index, by simp [eventOf, hsplit, hchain, hindex], hanswer,
              List.mem_of_find?_eq_some hlog, hat, Except.ok.inj h⟩
    · rw [if_pos hchain] at h
      cases h

lemma matchesIntent_token {ns : NamespaceConfig} {env : MintEnvelope} {txHash : Text} {log : Log} {ev : DepositEvent}
    (h : matchesIntent ns env txHash log = true) (hev : decodeDeposit log = .ok ev) :
    ev.token = toLowercase ns.tokenAddress := by
  unfold matchesIntent at h
  split_ifs at h
  rw [hev] at h
  dsimp only at h
  cases hreceipt : frFromHex ev.receiptHex with
  | none =>
    rw [hreceipt] at h
    cases h
  | some receipt =>
    rw [hreceipt] at h
    exact (of_decide_eq_true h).1

lemma Approves.credited {p : Namespace × MintEnvelope} (h : Approves token place s.chain p) :
    Credited token place s.chain p := by
  obtain ⟨cfg, rpc, hcheck, hrouted, hshows⟩ := h
  obtain ⟨txHash, block, logs, log, index, hevent, hanswer, hlog, hindex, hmatches⟩ := check_matches hcheck
  obtain ⟨haddress, hremoved, ev, hev, hamount, hhash⟩ := matchesIntent_eq_true hmatches
  obtain ⟨r, hr, hplace, htoken, hsum⟩ := hshows txHash block logs log ev hanswer hlog haddress hremoved hev
  refine ⟨r, hr, ?_, hsum.trans hamount, hrouted r.token ?_⟩
  · have hsame : ev.logIndex = index := Option.some.inj ((decodeDeposit_ok hev).2.symm.trans hindex)
    rw [hevent, hplace, hhash, hsame]
  · rw [← matchesIntent_token hmatches hev]
    exact htoken

lemma Credited.later {chain chain' : Gateway.World} {p : Namespace × MintEnvelope} (h : Credited token place chain p)
    (hgrows : chain.gateway.deposited <+: chain'.gateway.deposited) : Credited token place chain' p := by
  obtain ⟨r, hr, hrest⟩ := h
  exact ⟨r, hgrows.subset hr, hrest⟩

lemma deposited_step {ch : Gateway.Chain} {w w' : Gateway.World} {e : Nat × Gateway.Call} (hkept : Gateway.Kept ch w)
    (h : w.step ch e = .ok w') : w.gateway.deposited <+: w'.gateway.deposited := by
  have hsame {g : Gateway.PealLinksGateway} (hg : g.deposited = w.gateway.deposited) :
      w.gateway.deposited <+: g.deposited := by
    rw [hg]
  cases Gateway.step_effect h with
  | @deposit _ _ _ _ r hr =>
    obtain ⟨g, erc20⟩ := r
    obtain ⟨-, -, hg⟩ := Gateway.PealLinksGateway.deposit_ok hr
    have hlog := congrArg Gateway.PealLinksGateway.deposited hg
    exact ⟨_, hlog.symm⟩
  | @withdraw _ _ _ r hr =>
    obtain ⟨g, erc20⟩ := r
    obtain ⟨-, -, -, -, -, -, -, hg⟩ := Gateway.PealLinksGateway.withdraw_ok hr
    have hlog := congrArg Gateway.PealLinksGateway.deposited hg
    exact hsame hlog
  | rotate hr =>
    obtain ⟨-, -, hg⟩ := Gateway.PealLinksGateway.rotate_ok hr hkept.later
    have hlog := congrArg Gateway.PealLinksGateway.deposited hg
    exact hsame hlog
  | administer => exact hsame rfl
  | sign => exact hsame rfl
  | move => exact hsame rfl
  | approve => exact hsame rfl

lemma Vouched.later (h : Vouched token place s) (hmints : t.mints = s.mints)
    (hgrows : s.chain.gateway.deposited <+: t.chain.gateway.deposited) : Vouched token place t := by
  refine ⟨fun p hp => ?_, fun p hp q hq => ?_⟩
  · rw [hmints] at hp
    exact (h.credited p hp).later hgrows
  · rw [hmints] at hp hq
    exact h.apart p hp q hq

lemma Vouched.finalized (h : Vouched token place s) {tx : Tx} (hvetted : Vetted token place s (.finalize tx)) :
    Vouched token place { s with finalized := s.finalized ++ [tx] } := by
  have hmints : Network.mints { s with finalized := s.finalized ++ [tx] } = s.mints ++ tx.mint?.toList := by
    unfold Network.mints
    rw [List.filterMap_append, List.filterMap_cons, List.filterMap_nil]
    cases tx.mint? <;> rfl
  refine ⟨fun p hp => ?_, fun p hp q hq => ?_⟩
  · rw [hmints] at hp
    rcases List.mem_append.mp hp with hold | hnew
    · exact h.credited p hold
    · exact (hvetted p (Option.mem_toList.mp hnew)).1.credited
  · rw [hmints] at hp hq
    rcases List.mem_append.mp hp with hold | hnew
    · rcases List.mem_append.mp hq with hold' | hnew'
      · exact h.apart p hold q hold'
      · exact (hvetted q (Option.mem_toList.mp hnew')).2 p hold
    · rcases List.mem_append.mp hq with hold' | hnew'
      · intro heq
        obtain ⟨hns, hid⟩ := (hvetted p (Option.mem_toList.mp hnew)).2 q hold' heq.symm
        exact ⟨hns.symm, hid.symm⟩
      · have hsame := (Option.mem_toList.mp hnew).symm.trans (Option.mem_toList.mp hnew')
        rw [Option.some.inj hsame]
        exact fun _ => ⟨rfl, rfl⟩

end Deposits

/-! ### The burns behind the releases -/

/-- The release is of a burn, in the token of the burn's namespace. -/
def Discharges (d : Deployment) (token : Namespace → Option Nat) (s : Network) (r : Gateway.Withdrawn) : Prop :=
  ∃ claim, Burned d s claim ∧ r.withdrawalId = withdrawalId d.chain claim.namespaceId claim.position ∧
    r.amount = claim.opening.amount ∧ token claim.namespaceId = some r.token

section Releases

variable {d : Deployment} {token : Namespace → Option Nat} {s t : Network}

lemma Discharges.later {r : Gateway.Withdrawn} (h : Discharges d token s r) (hle : s ≤ t) : Discharges d token t r := by
  obtain ⟨claim, hburned, hrest⟩ := h
  exact ⟨claim, hburned.later hle, hrest⟩

lemma signed_of_quorum {faulty : Nat → Bool} {members attesters : List Nat} {threshold digest : Nat}
    (hfew : (members.filter faulty).length < threshold) (hdistinct : attesters.Nodup) (hmembers : attesters ⊆ members)
    (hreached : threshold ≤ attesters.length) (hsigned : ∀ a ∈ attesters, SignedBy s faulty a digest) :
    ∃ x ∈ s.signed, x.digest = digest := by
  have hhonest : ∃ a ∈ attesters, faulty a = false := by
    by_contra hnone
    push Not at hnone
    have hsub : attesters ⊆ members.filter faulty := fun a ha =>
      List.mem_filter.mpr ⟨hmembers ha, by simpa using hnone a ha⟩
    have hlength := (hdistinct.subperm hsub).length_le
    omega
  obtain ⟨a, ha, hsound⟩ := hhonest
  rcases hsigned a ha with hfaulty | ⟨x, hx, -, hdigest⟩
  · rw [hsound] at hfaulty
    cases hfaulty
  · exact ⟨x, hx, hdigest⟩

lemma decode_token {m : WithdrawalMessage} {wd : Gateway.Withdrawal} (h : m.decode = .ok wd) :
    wordAddress m.token = .ok wd.token := by
  unfold WithdrawalMessage.decode at h
  simp only [bind_eq_ok, expect_eq_ok, require_eq_ok, pure_eq_ok] at h
  obtain ⟨amount, -, wid, -, -, -, gateway, -, tok, htoken, recipient, -, rfl⟩ := h
  exact htoken

lemma discharges_call (hinj : Function.Injective d.chain.keccak256) {faulty : Nat → Nat → Bool} {e : Nat × Gateway.Call}
    {chain : Gateway.World} (hattentive : Attentive d s) (hkept : Gateway.Kept d.chain s.chain)
    (hrouted : ∀ x ∈ s.signed, Routed token x.claim.namespaceId x.message.token)
    (hhonest : Unfaked d faulty s (.call e)) (hcall : s.chain.step d.chain e = .ok chain)
    (h : ∀ r ∈ s.chain.gateway.withdrawn, Discharges d token s r) :
    ∀ r ∈ chain.gateway.withdrawn, Discharges d token s r := by
  intro r hr
  rcases Gateway.step_withdrawn hkept hcall with ⟨wd, signatures, ⟨g, erc20⟩, he, hok, rfl⟩ | hsame
  · obtain ⟨caller, call⟩ := e
    subst he
    obtain ⟨hfew, hunforged⟩ := hhonest (wd, signatures) rfl
    obtain ⟨-, -, -, -, ⟨attesters, hdistinct, hreached, hattest⟩, -, -, hlog⟩ :=
      Gateway.PealLinksGateway.withdraw_ok hok
    have hlog := congrArg Gateway.PealLinksGateway.withdrawn hlog
    have hmem : r ∈ g.withdrawn := hr
    rw [hlog] at hmem
    rcases List.mem_append.mp hmem with hold | hnew
    · exact h r hold
    · obtain ⟨x, hx, hdigest⟩ := signed_of_quorum hfew hdistinct
        (fun a ha => (hkept.committee.members a).mp (hattest a ha).1) hreached fun a ha => by
          obtain ⟨-, signature, hsignature, hrecover⟩ := hattest a ha
          exact hunforged signature hsignature a hrecover
      have hchecked := hattentive.signed x hx
      have hdecoded := decode_of_digest hinj (hdigest ▸ hchecked.digest)
      have hpays := hchecked.spells.pays hchecked.burned.owned hdecoded
      rw [List.mem_singleton.mp hnew]
      exact ⟨x.claim, hchecked.burned, hpays.withdrawalId, hpays.amount, hrouted x hx _ (decode_token hdecoded)⟩
  · rw [hsame] at hr
    exact h r hr

end Releases

/-! ### What the ledgers open to -/

/-- The history has witnesses, and by any of them the commitments open to a pool. -/
structure Ledger.Accounted (c : Crypto) (inst : Instance) (bottom : Fr) (l : Ledger) : Prop where
  inst_eq : l.inst = inst
  stored : Stored c l
  witnessed : ∃ moves, List.Forall₂ (Witnessed c inst bottom) l.store.ops moves
  opened : ∀ moves, List.Forall₂ (Witnessed c inst bottom) l.store.ops moves →
    ∃ p, Pool.run {} moves = some p ∧ LedgerOpens c inst l p

/-- A pool that a witness of the namespace's history comes to. -/
def OpensTo (d : Deployment) (inst : Instance) (bottom : Fr) (s : Network) (ns : Namespace) (p : Pool Fr) : Prop :=
  match s.latest d ns with
  | none => p = {}
  | some l => ∃ moves, List.Forall₂ (Witnessed d.crypto inst bottom) l.store.ops moves ∧
      Pool.run {} moves = some p ∧ LedgerOpens d.crypto inst l p

section Ledgers

variable {c : Crypto} {inst : Instance} {bottom : Fr} {l l' : Ledger} {ledgers ledgers' : Ledgers}

lemma Ledger.Accounted.fresh (cfg : LedgerConfig) : Accounted c inst bottom (Ledger.fresh c inst cfg) := by
  refine ⟨rfl, stored_fresh inst cfg, ⟨[], .nil⟩, fun moves hmoves => ?_⟩
  obtain rfl := List.forall₂_nil_left_iff.mp hmoves
  exact ⟨{}, rfl, .nil, .nil, rfl⟩

lemma Ledger.Accounted.transition (hbind : Binding c) (hsound : ProofsSound c inst bottom) {envelope : Envelope}
    {r : Applied} (h : Accounted c inst bottom l) (ht : l.transition c envelope = .ok (l', r)) :
    Accounted c inst bottom l' := by
  obtain ⟨rfl, hstored, ⟨moves, hmoves⟩, hopened⟩ := h
  obtain ⟨row, hops, hrow, -⟩ := OpenLedger.Ledger.transition_ops ht
  refine ⟨(later_transition ht).inst, stored_transition hstored ht, ?_, fun moves' hmoves' => ?_⟩
  · obtain ⟨m, hm⟩ := witnessed_transition hsound ht hrow
    refine ⟨moves ++ [m], ?_⟩
    rw [hops]
    exact forall₂_concat hmoves hm
  · rw [hops] at hmoves'
    obtain ⟨before, m, rfl, hbefore, hm⟩ := forall₂_concat_left hmoves'
    obtain ⟨p, hrun, hp⟩ := hopened before hbefore
    obtain ⟨p', hmove, hp'⟩ := opens_transition hbind hstored.logged hp ht hrow hm
    refine ⟨p', ?_, hp'⟩
    rw [Pool.run_concat, hrun]
    exact hmove

lemma accounted_txs (hbind : Binding c) (hsound : ProofsSound c inst bottom)
    (h : ∀ ns l, ledgers ns = some l → l.Accounted c inst bottom) (txs : List Tx) :
    ∀ ns l, exec (txStep c) ledgers txs ns = some l → l.Accounted c inst bottom := by
  refine exec_invariant (txStep c) (I := fun ledgers : Ledgers => ∀ ns l, ledgers ns = some l →
    l.Accounted c inst bottom) (fun ms tx ms' hms hstep ns m hm => ?_) h txs
  obtain ⟨l, l', r, hl, hr, rfl⟩ := txStep_ok hstep
  by_cases hns : ns = tx.namespaceId
  · subst hns
    rw [Function.update_self] at hm
    obtain rfl := Option.some.inj hm
    exact (hms _ l hl).transition hbind hsound hr
  · rw [Function.update_of_ne hns] at hm
    exact hms ns m hm

end Ledgers

/-! ### The books -/

/-- What a deployment rests on: hashes that bind, proofs that are sound, a receiver of burns that no key is behind,
and ledgers that start empty. -/
structure Grounded (d : Deployment) (inst : Instance) (bottom : Fr) : Prop where
  keccak256 : Function.Injective d.chain.keccak256
  binding : Binding d.crypto
  sound : ProofsSound d.crypto inst bottom
  unkeyed : ∀ ns key, accountId d.crypto ns key ≠ withdrawReceiver d.crypto
  genesis : ∀ ns l, d.genesis ns = some l → ∃ cfg, l = Ledger.fresh d.crypto inst cfg

/-- The finalized envelopes, as one block. -/
def Network.asBlock (s : Network) : Block × Id := (⟨0, 0, 0, 0, 0, s.finalized⟩, 0)

def Network.ledgerState (d : Deployment) (s : Network) (namespaces : List Namespace) : State where
  namespaces := namespaces
  ledgers := s.latest d
  genesis := 0
  head := ⟨0, 0, 0⟩
  blocks := []

section Books

variable {d : Deployment} {inst : Instance} {bottom : Fr} {token : Namespace → Option Nat} {place : Nat → EventId}
  {s : Network} {t : Nat} {namespaces : List Namespace} {pools : Namespace → Pool Fr}

lemma mintTxs_asBlock : mintTxs [s.asBlock] = s.mints := List.append_nil _

lemma creditsFrom_latest (hd : Grounded d inst bottom) :
    CreditsFrom [s.asBlock] (s.ledgerState d namespaces).namespaces (s.ledgerState d namespaces) := by
  refine ⟨rfl, creditsFrom_txs (List.mem_singleton_self s.asBlock) fun ns l hl => ?_⟩
  obtain ⟨cfg, rfl⟩ := hd.genesis ns l hl
  exact ⟨⟨rfl, List.nodup_nil⟩, fun env henv => absurd henv List.not_mem_nil⟩

lemma mem_ledgerMints {p : Namespace × MintEnvelope} (hp : p ∈ (s.ledgerState d namespaces).mints) :
    p.1 ∈ namespaces := by
  obtain ⟨ns, hns, hmem⟩ := List.mem_flatMap.mp hp
  cases hl : (s.ledgerState d namespaces).ledgers ns with
  | none =>
    rw [hl] at hmem
    exact absurd hmem List.not_mem_nil
  | some l =>
    rw [hl] at hmem
    obtain ⟨env, -, rfl⟩ := List.mem_map.mp hmem
    exact hns

lemma minted_le_deposited (hd : Grounded d inst bottom) (hvouched : Vouched token place s) (hnodup : namespaces.Nodup)
    (htoken : ∀ ns ∈ namespaces, token ns = some t) :
    (s.ledgerState d namespaces).mintedTotal ≤ s.chain.depositedOf t := by
  have hcredits : CreditsFrom [s.asBlock] (s.ledgerState d namespaces).namespaces (s.ledgerState d namespaces) :=
    creditsFrom_latest hd
  have hkeys := hcredits.nodup hnodup
  have hmem : ∀ p ∈ (s.ledgerState d namespaces).mints, p ∈ s.mints := fun p hp =>
    mintTxs_asBlock (s := s) ▸ hcredits.mem hp
  have hevents : ((s.ledgerState d namespaces).mints.map fun p => eventOf p.2.depositId).Nodup := by
    apply List.Nodup.map_on _ hkeys.of_map
    intro p hp q hq heq
    obtain ⟨hns, hid⟩ := hvouched.apart p (hmem p hp) q (hmem q hq) heq
    exact List.inj_on_of_nodup_map hkeys hp hq (Prod.ext hns hid)
  have hpairs : ((s.ledgerState d namespaces).mints.map fun p => (eventOf p.2.depositId, p.2.intent.amount)).Nodup := by
    apply List.Nodup.of_map Prod.fst
    rwa [List.map_map]
  have hpool : ∀ p ∈ (s.ledgerState d namespaces).mints, (eventOf p.2.depositId, p.2.intent.amount) ∈
      (s.chain.gateway.deposited.filter fun r => r.token == t).map fun r => (some (place r.id), r.amount) := by
    intro p hp
    obtain ⟨r, hr, hevent, hamount, hrouted⟩ := hvouched.credited p (hmem p hp)
    have htok : r.token = t := Option.some.inj (hrouted.symm.trans (htoken p.1 (mem_ledgerMints hp)))
    exact List.mem_map.mpr ⟨r, List.mem_filter.mpr ⟨hr, beq_iff_eq.mpr htok⟩, by rw [hevent, hamount]⟩
  have hsum := sum_map_le_of_nodup (g := Prod.snd) hpairs hpool
  rw [hcredits.mintedTotal]
  rwa [List.map_map] at hsum

lemma OpensTo.some {ns : Namespace} {p : Pool Fr} (h : OpensTo d inst bottom s ns p) {l : Ledger}
    (hl : s.latest d ns = some l) : ∃ moves, List.Forall₂ (Witnessed d.crypto inst bottom) l.store.ops moves ∧
      Pool.run {} moves = some p ∧ LedgerOpens d.crypto inst l p := by
  unfold OpensTo at h
  rwa [hl] at h

lemma burned_setAside (hbind : Binding d.crypto) {claim : WithdrawalClaim} (h : Burned d s claim) {p : Pool Fr}
    (hp : OpensTo d inst bottom s claim.namespaceId p) :
    claim.position ∈ p.setAside (withdrawReceiver d.crypto) ∧ p.amountAt claim.position = claim.opening.amount := by
  obtain ⟨l, hl, hleaf⟩ := h.logged
  obtain ⟨-, hreceiver, -⟩ := verify_ok h.owned
  obtain ⟨moves, -, -, hopens⟩ := hp.some hl
  obtain ⟨n, hn, sender, receiver, kind, r, hcommitment, howner⟩ := forall₂_getElem? hopens.receipts hleaf
  have hinputs := hbind.injective _ hcommitment
  simp only [List.cons.injEq, and_true] at hinputs
  obtain ⟨hamount, -, hsame, hkind, -⟩ := hinputs
  rw [if_pos hkind.symm, ← hsame, hreceiver] at howner
  refine ⟨Finset.mem_filter.mpr ⟨Finset.mem_range.mpr (List.getElem?_eq_some_iff.mp hn).1, ?_⟩, ?_⟩
  · rw [Pool.ownerAt, hn, Option.bind_some, howner]
  · rw [Pool.amountAt, hn, Option.map_some, Option.getD_some, hamount]

lemma released_le_burned (hd : Grounded d inst bottom)
    (hdischarged : ∀ r ∈ s.chain.gateway.withdrawn, Discharges d token s r)
    (honce : (s.chain.gateway.withdrawn.map Gateway.Withdrawn.withdrawalId).Nodup)
    (hall : ∀ ns, token ns = some t → ns ∈ namespaces)
    (hopens : ∀ ns ∈ namespaces, OpensTo d inst bottom s ns (pools ns)) :
    s.chain.releasedOf t ≤ (namespaces.map fun ns => (pools ns).burned (withdrawReceiver d.crypto)).sum := by
  have hids : ((s.chain.gateway.withdrawn.filter fun r => r.token == t).map fun r =>
      (r.withdrawalId, r.amount)).Nodup := by
    apply List.Nodup.of_map Prod.fst
    rw [List.map_map]
    exact honce.sublist (List.filter_sublist.map _)
  have hpool : ∀ r ∈ s.chain.gateway.withdrawn.filter (fun r => r.token == t), (r.withdrawalId, r.amount) ∈
      namespaces.flatMap fun ns => ((pools ns).setAside (withdrawReceiver d.crypto)).toList.map fun i =>
        (withdrawalId d.chain ns i, (pools ns).amountAt i) := by
    intro r hr
    obtain ⟨hmem, htok⟩ := List.mem_filter.mp hr
    obtain ⟨claim, hburned, hid, hamount, hrouted⟩ := hdischarged r hmem
    have hns := hall claim.namespaceId (hrouted.trans (congrArg some (beq_iff_eq.mp htok)))
    obtain ⟨hposition, hvalue⟩ := burned_setAside hd.binding hburned (hopens _ hns)
    exact List.mem_flatMap.mpr ⟨_, hns, List.mem_map.mpr
      ⟨claim.position, Finset.mem_toList.mpr hposition, by rw [hid, hamount, hvalue]⟩⟩
  have hsum := sum_map_le_of_nodup (g := Prod.snd) hids hpool
  have hburned : ((namespaces.flatMap fun ns => ((pools ns).setAside (withdrawReceiver d.crypto)).toList.map fun i =>
      (withdrawalId d.chain ns i, (pools ns).amountAt i)).map Prod.snd).sum =
        (namespaces.map fun ns => (pools ns).burned (withdrawReceiver d.crypto)).sum := by
    rw [List.map_flatMap, List.flatMap_def, List.sum_flatten, List.map_map]
    congr 1
    refine List.map_congr_left fun ns _ => ?_
    rw [Function.comp_apply, List.map_map]
    exact Pool.burned_list _ _
  rw [hburned] at hsum
  exact hsum

lemma circulating_minted (hd : Grounded d inst bottom) {ns : Namespace} {p : Pool Fr}
    (h : OpensTo d inst bottom s ns p) :
    p.circulating (withdrawReceiver d.crypto) + p.burned (withdrawReceiver d.crypto) =
      match s.latest d ns with
      | some l => l.mintedTotal
      | none => 0 := by
  cases hl : s.latest d ns with
  | none =>
    unfold OpensTo at h
    rw [hl] at h
    subst h
    rfl
  | some l =>
    obtain ⟨moves, hmoves, hrun, hopens⟩ := h.some hl
    obtain ⟨hkept, -, -⟩ := Pool.run_keeps hrun
    refine (hkept.circulating_burned fun g hg hdead => ?_).trans hopens.minted
    obtain ⟨row, -, hwitnessed⟩ : ∃ row ∈ l.store.ops, Witnessed d.crypto inst bottom row (.enrol g.owner) := by
      have henrolled := Pool.run_enrolled hrun g hg
      obtain ⟨i, hi⟩ := List.getElem?_of_mem henrolled
      obtain ⟨row, hrow, hw⟩ := forall₂_getElem? hmoves.flip hi
      exact ⟨row, List.mem_of_getElem? hrow, hw⟩
    generalize hmove : Move.enrol g.owner = m at hwitnessed
    cases hwitnessed with
    | register env henv =>
      exact hd.unkeyed _ _ ((Move.enrol.inj hmove).symm.trans hdead)
    | op env henv w hw =>
      unfold OpCircuit.move at hmove
      split_ifs at hmove
    | mint env henv w hw => cases hmove

end Books

/-! ### Runs -/

/-- Nobody forges a signature or finalizes a mint that was not vetted, and nodes come back with the same tokens. -/
structure Honest (d : Deployment) (faulty : Nat → Nat → Bool) (token : Namespace → Option Nat)
    (place : Nat → EventId) (run : Run) (e : Happening) : Prop where
  unfaked : Heeds (Unfaked d faulty) run e
  vetted : Heeds (Vetted token place) run e
  reopens : Reopens token e

/-- The histories open to pools, and what circulates in the namespaces of a token, whatever pools these are, is no
more than the gateway holds of it. -/
structure Covered (d : Deployment) (inst : Instance) (bottom : Fr) (token : Namespace → Option Nat) (s : Network) :
    Prop where
  opens : ∀ ns, ∃ p, OpensTo d inst bottom s ns p
  backed : ∀ (t : Nat) (namespaces : List Namespace) (pools : Namespace → Pool Fr), namespaces.Nodup →
    (∀ ns, ns ∈ namespaces ↔ token ns = some t) → (∀ ns ∈ namespaces, OpensTo d inst bottom s ns (pools ns)) →
      (namespaces.map fun ns => (pools ns).circulating (withdrawReceiver d.crypto)).sum ≤
        (s.chain.erc20 t).balanceOf d.chain.self

structure Booked (d : Deployment) (token : Namespace → Option Nat) (place : Nat → EventId) (run : Run) : Prop where
  steady : Steady (Attentive d) run
  stamped : Stamped token run
  kept : Gateway.Kept d.chain run.state.chain
  discharged : ∀ r ∈ run.state.chain.gateway.withdrawn, Discharges d token run.state r
  vouched : Vouched token place run.state

section Runs

variable {d : Deployment} {inst : Instance} {bottom : Fr} {token : Namespace → Option Nat} {place : Nat → EventId}
  {s : Network} {faulty : Nat → Nat → Bool}

lemma booked_step (hinj : Function.Injective d.chain.keccak256) {run run' : Run} {e : Happening}
    (h : Booked d token place run) (hhonest : Honest d faulty token place run e)
    (hstep : (Network.machine d).step run e = .ok run') : Booked d token place run' := by
  have hsteady := attentive_step h.steady hstep
  have hstamped := stamped_step h.stamped hhonest.reopens hstep
  have hle := le_step h.steady hstep
  -- Most events leave the chain and the envelopes as they are.
  have hsame (hchain : run'.state.chain = run.state.chain) (hfinalized : run'.state.finalized = run.state.finalized) :
      Booked d token place run' := by
    have hmints : run'.state.mints = run.state.mints := by
      unfold Network.mints
      rw [hfinalized]
    refine ⟨hsteady, hstamped, hchain ▸ h.kept, fun r hr => (h.discharged r (hchain ▸ hr)).later hle,
      h.vouched.later hmints ?_⟩
    rw [hchain]
  cases e with
  | request i r =>
    obtain rfl := Except.ok.inj hstep
    exact hsame rfl rfl
  | resume k w =>
    obtain ⟨i, update, next, hrunning, rfl⟩ := Machine.step_resume hstep
    have hstamps := (h.stamped.running _ (List.mem_of_getElem? hrunning)).1
    exact hsame (hstamps.chain w run.state) (hstamps.finalized w run.state)
  | crash i r =>
    obtain rfl := Except.ok.inj hstep
    exact hsame rfl rfl
  | outside u =>
    obtain ⟨next, hu, rfl⟩ := Machine.step_outside hstep
    cases u with
    | finalize tx =>
      obtain rfl := Except.ok.inj hu
      exact ⟨hsteady, hstamped, h.kept, fun r hr => (h.discharged r hr).later hle, h.vouched.finalized hhonest.vetted⟩
    | apply m =>
      change (if _ then _ else _) = _ at hu
      split_ifs at hu
      obtain rfl := Except.ok.inj hu
      exact hsame rfl rfl
    | call e =>
      obtain ⟨chain, hchain, rfl⟩ := exceptMap_eq_ok.mp hu
      have hcall := mapError_eq_ok.mp hchain
      have hdischarged := discharges_call hinj h.steady.kept h.kept h.stamped.signed hhonest.unfaked hcall h.discharged
      exact ⟨hsteady, hstamped, h.kept.step hcall, fun r hr => (hdischarged r hr).later hle,
        h.vouched.later rfl (deposited_step h.kept hcall)⟩
    | confirm m namespaceId withdrawalId txHash =>
      obtain rfl := Except.ok.inj hu
      exact hsame rfl rfl

lemma Fresh.booked (hfresh : Fresh d s) (hnone : s.finalized = []) (hconf : ∀ n, (s.nodes n).conf.Follows token) :
    Booked d token place ⟨s, []⟩ := by
  obtain ⟨issued, owner, signers, threshold, hdeployed⟩ := hfresh.deployed
  have hkept := Gateway.kept_deployed hdeployed
  have hmints : s.mints = [] := by
    unfold Network.mints
    rw [hnone]
    rfl
  refine ⟨⟨hfresh.toBlank.attentive, fun p hp => absurd hp List.not_mem_nil⟩, ⟨hconf, fun x hx => ?_,
    fun p hp => absurd hp List.not_mem_nil⟩, hkept, fun r hr => ?_, ⟨fun p hp => ?_, fun p hp => ?_⟩⟩
  · dsimp only at hx
    rw [hfresh.signed] at hx
    exact absurd hx List.not_mem_nil
  · dsimp only at hr
    rw [Gateway.deployed_withdrawn hdeployed] at hr
    exact absurd hr List.not_mem_nil
  · dsimp only at hp
    rw [hmints] at hp
    exact absurd hp List.not_mem_nil
  · dsimp only at hp
    rw [hmints] at hp
    exact absurd hp List.not_mem_nil

lemma Booked.covered (hd : Grounded d inst bottom) {run : Run} (h : Booked d token place run) :
    Covered d inst bottom token run.state := by
  have haccounted : ∀ ns l, run.state.latest d ns = some l → l.Accounted d.crypto inst bottom := by
    refine accounted_txs hd.binding hd.sound (fun ns l hl => ?_) run.state.finalized
    obtain ⟨cfg, rfl⟩ := hd.genesis ns l hl
    exact .fresh cfg
  refine ⟨fun ns => ?_, fun t namespaces pools hnodup hnamespaces hopens => ?_⟩
  · unfold OpensTo
    cases hl : run.state.latest d ns with
    | none => exact ⟨{}, rfl⟩
    | some l =>
      obtain ⟨moves, hmoves⟩ := (haccounted ns l hl).witnessed
      obtain ⟨p, hrun, hp⟩ := (haccounted ns l hl).opened moves hmoves
      exact ⟨p, moves, hmoves, hrun, hp⟩
  · have hminted := minted_le_deposited hd h.vouched hnodup fun ns hns => (hnamespaces ns).mp hns
    have hreleased := released_le_burned hd h.discharged h.kept.once (fun ns hns => (hnamespaces ns).mpr hns) hopens
    have haccount := h.kept.accounted t
    have hsplit : (namespaces.map fun ns => (pools ns).circulating (withdrawReceiver d.crypto)).sum +
        (namespaces.map fun ns => (pools ns).burned (withdrawReceiver d.crypto)).sum =
          (run.state.ledgerState d namespaces).mintedTotal := by
      rw [← List.sum_map_add]
      exact congrArg List.sum (List.map_congr_left fun ns hns => circulating_minted hd (hopens ns hns))
    omega

/-- In every run of settlements, crashes, finalized envelopes and calls of the gateway, all that circulates on the
ledgers of a token's namespaces is covered by the tokens that the gateway holds. -/
theorem gateway_covers_ledgers (hd : Grounded d inst bottom) (hfresh : Fresh d s) (hnone : s.finalized = [])
    (hconf : ∀ n, (s.nodes n).conf.Follows token) {es : List Happening}
    (hhonest : Along (Network.machine d).step (Honest d faulty token place) ⟨s, []⟩ es) :
    Throughout (Network.machine d).step (fun run => Covered d inst bottom token run.state) ⟨s, []⟩ es := by
  have hbooked : Throughout (Network.machine d).step (Booked d token place) ⟨s, []⟩ es :=
    throughout_along _ (fun _ _ _ h hhonest hstep => booked_step hd.keccak256 h hhonest hstep)
      (hfresh.booked hnone hconf) hhonest
  exact fun n => (hbooked n).covered hd

end Runs

section Sample

/-- The hash is 11 on one receipt, and readable elsewhere. -/
def backedHash (domain : Nat) (inputs : List Nat) : Nat :=
  if inputs = [5, mintSender sampleCrypto, 7, 1, 9] then 11 else Nat.pair domain (Encodable.encode inputs) + 12

/-- No key hashes to the receiver of burns. -/
def backedCrypto : Crypto := { sampleCrypto with
  hash := backedHash
  sha256 := fun chunks => match chunks with
    | [.text "peal-links/v1/withdraw-receiver"] => 1000003
    | _ => sampleCrypto.sha256 chunks
  verify := fun circuit _ input => match circuit with
    | .op => false
    | .deposit => input = [5, 11] }

def backedDeployment : Deployment := { sampleSettlement with
  crypto := backedCrypto
  genesis := fun ns => if ns = 5 then some (Ledger.fresh backedCrypto ⟨1, 1⟩ ⟨5, 9, 4⟩) else none }

def backedToken (ns : Namespace) : Option Nat := if ns = 5 then some 0 else none

def backedPlace (_ : Nat) : EventId := ⟨31337, "0xab".toList, 2⟩

def backedNetwork : Network := { sampleNetwork with
  nodes := fun _ => { sampleNode with conf := { sampleNode.conf with namespaces := sampleServed } } }

/-- Five units are deposited and minted. -/
def backedEvents : List Happening :=
  [.outside (.call (1, .configureToken 0 true 1000)), .outside (.call (9, .approve 0 42 50)),
    .outside (.call (9, .deposit 0 5 77)), .outside (.finalize ⟨5, .mint (sampleMint "31337:0xab:2".toList)⟩)]

lemma backedHash_injective (domain : Nat) : Function.Injective (backedHash domain) := by
  intro inputs inputs' h
  unfold backedHash at h
  split_ifs at h with hin hin'
  · exact hin.trans hin'.symm
  · omega
  · omega
  · exact Encodable.encode_injective (Nat.pair_eq_pair.mp (Nat.add_right_cancel h)).2

lemma backedHash_ne_zero (domain : Nat) (inputs : List Nat) : backedHash domain inputs ≠ 0 := by
  unfold backedHash
  split_ifs <;> omega

lemma backed_grounded : Grounded backedDeployment ⟨1, 1⟩ 0 where
  keccak256 := SortedPairTree.pairingHash_injective
  binding := ⟨backedHash_injective, backedHash_ne_zero _⟩
  sound := by
    refine ⟨fun proof x h => absurd h Bool.false_ne_true, fun proof amount receipt h => ?_⟩
    have hinput : [amount, receipt] = [5, 11] := of_decide_eq_true h
    simp only [List.cons.injEq, and_true] at hinput
    obtain ⟨rfl, rfl⟩ := hinput
    exact ⟨⟨7, 9⟩, rfl, by decide⟩
  unkeyed ns key := (Nat.mod_lt _ (by decide)).ne
  genesis ns l hl := ⟨_, (Option.some.inj (Option.ite_none_right_eq_some.mp hl).2).symm⟩

lemma backedConfig_routed {ns : Namespace} {cfg : NamespaceConfig} (h : sampleServed ns = some cfg) :
    Routed backedToken ns (toLowercase cfg.tokenAddress) := by
  obtain ⟨hns, -⟩ := Option.ite_none_right_eq_some.mp h
  rw [sampleServed_eq h]
  intro t ht
  have haddress : wordAddress (toLowercase sampleConfig.tokenAddress) = .ok 0 := by decide +kernel
  obtain rfl := Except.ok.inj (haddress.symm.trans ht)
  exact if_pos hns

lemma backed_honest : Along (Network.machine backedDeployment).step
    (Honest backedDeployment (fun _ _ => false) backedToken backedPlace) ⟨backedNetwork, []⟩ backedEvents := by
  refine ⟨⟨nofun, trivial, trivial⟩, ⟨nofun, trivial, trivial⟩, ⟨nofun, trivial, trivial⟩,
    ⟨nofun, ?_, trivial⟩, trivial⟩
  rintro p ⟨⟩
  refine ⟨⟨sampleConfig, sampleRpc, by decide +kernel, backedConfig_routed rfl, ?_⟩,
    fun q hq => absurd hq List.not_mem_nil⟩
  intro txHash block logs log ev hlogs hlog _ _ hev
  rw [sampleRpc_logs hlogs, List.mem_singleton] at hlog
  rw [hlog, sampleLog_decodes] at hev
  obtain rfl := Except.ok.inj hev
  exact ⟨⟨1, 0, 9, 5, 77⟩, by decide +kernel, rfl, by decide +kernel, rfl⟩

theorem gateway_covers_ledgers_sample :
    ((exec (Network.machine backedDeployment).step ⟨backedNetwork, []⟩ backedEvents).state.latest
        backedDeployment 5).map Ledger.mintedTotal = some 5 ∧
      Throughout (Network.machine backedDeployment).step
        (fun run => Covered backedDeployment ⟨1, 1⟩ 0 backedToken run.state) ⟨backedNetwork, []⟩ backedEvents := by
  have hfresh : Fresh backedDeployment backedNetwork :=
    ⟨⟨fun _ => rfl, fun _ => rfl, rfl, rfl⟩, sampleNetwork_fresh.deployed⟩
  exact ⟨by decide +kernel,
    gateway_covers_ledgers backed_grounded hfresh rfl (fun _ ns cfg h => backedConfig_routed h) backed_honest⟩

end Sample

end Peal.Links
