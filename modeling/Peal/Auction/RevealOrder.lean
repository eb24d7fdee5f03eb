import Peal.Auction.Recovery

namespace Peal.Auction
open Peal.Fallible Peal.UniformPrice Peal.SortedPairTree Peal.Runs Peal.Rows SealedBidAuction

/-! # The order of the reveals does not matter -/

/-- The auction but for the time of its last void. -/
def untimed (a : SealedBidAuction) : SealedBidAuction := { a with lastVoidAt := 0 }

lemma untimed_eq_iff {a a' : SealedBidAuction} :
    untimed a = untimed a' ↔ a' = { a with lastVoidAt := a'.lastVoidAt } := by
  cases a
  cases a'
  simp only [untimed, SealedBidAuction.mk.injEq, true_and, eq_comm]

section Entry

variable (env : Env) (cfg : Config)

/-- What an entry makes of its bid. -/
def written (e : RevealEntry) (b : Bid) : Bid :=
  if opensCommitment env b e then { b with revealed := true, quantity := e.quantity, tick := e.tick }
  else { b with revealed := true, voided := true }

/-- How many bids an entry voids. -/
def voids (e : RevealEntry) (b : Bid) : Nat := if opensCommitment env b e then 0 else 1

/-- The demand it adds at a tick. -/
def added (e : RevealEntry) (b : Bid) (t : Nat) : Nat :=
  if opensCommitment env b e ∧ affordable cfg b.escrow e.quantity e.tick = true ∧ e.tick = t then e.quantity else 0

/-- An accepted entry, but for its time. -/
def applied (a : SealedBidAuction) (e : RevealEntry) (b : Bid) : SealedBidAuction :=
  { a with
    bids := a.bids.set e.bidId (written env e b)
    processedBidCount := a.processedBidCount + 1
    voidedBidCount := a.voidedBidCount + voids env e b
    demandByTick := fun t => a.demandByTick t + added env a.config e b t
    lastVoidAt := 0 }

/-- The arithmetic of an entry fits its words. -/
structure EntryFits (a : SealedBidAuction) (e : RevealEntry) (b : Bid) : Prop where
  voided : ¬opensCommitment env b e → a.voidedBidCount + 1 < 2 ^ 32
  escrow : opensCommitment env b e → EscrowComputes a.config e.quantity e.tick
  demand : opensCommitment env b e → affordable a.config b.escrow e.quantity e.tick = true →
    a.demandByTick e.tick + e.quantity < 2 ^ 256

variable {env} {a a' : SealedBidAuction} {msg : Msg env} {e : RevealEntry} {b : Bid}

lemma written_revealed : (written env e b).revealed = true := by
  unfold written
  split_ifs
  · rfl
  · rfl

lemma untimed_afterVoid (hc : ¬opensCommitment env b e) :
    untimed (afterVoid env a msg e.bidId b) = applied env a e b := by
  have hadded : (fun t => a.demandByTick t + added env a.config e b t) = a.demandByTick := by
    funext t
    unfold added
    rw [if_neg fun h => hc h.1]
    rfl
  unfold applied written voids
  rw [hadded, if_neg hc, if_neg hc]
  rfl

lemma untimed_afterReveal (hc : opensCommitment env b e) :
    untimed (afterReveal a e b (affordable a.config b.escrow e.quantity e.tick)) = applied env a e b := by
  have hadded : (fun t => a.demandByTick t + added env a.config e b t) =
      if affordable a.config b.escrow e.quantity e.tick then
        Function.update a.demandByTick e.tick (a.demandByTick e.tick + e.quantity) else a.demandByTick := by
    funext t
    unfold added
    cases affordable a.config b.escrow e.quantity e.tick with
    | false => simp
    | true =>
      by_cases ht : e.tick = t
      · subst ht
        simp [hc]
      · simp [ht, Function.update_of_ne (Ne.symm ht)]
  unfold applied written voids
  rw [hadded, if_pos hc, if_pos hc]
  rfl

/-- An entry is accepted when it is well formed and fits, and then does the same at any time. -/
theorem processOne_untimed (msg : Msg env) (b : Bid) (hp : Processable env a e b) :
    (∀ a', processOne env a msg e = .ok a' → EntryFits env a e b ∧ untimed a' = applied env a e b) ∧
      (EntryFits env a e b → ∃ a', processOne env a msg e = .ok a' ∧ untimed a' = applied env a e b) := by
  constructor
  · intro a' h
    obtain ⟨b', hp', hcase⟩ := processOne_eq_ok.mp h
    obtain rfl : b = b' := Option.some.inj (hp.found.symm.trans hp'.found)
    rcases hcase with ⟨hc, hv, rfl⟩ | ⟨hc, eligible, hel, hd, rfl⟩
    · exact ⟨⟨fun _ => hv, fun ho => absurd ho hc, fun ho => absurd ho hc⟩, untimed_afterVoid hc⟩
    · obtain ⟨hcomp, rfl⟩ := isEligible_eq_ok.mp hel
      exact ⟨⟨fun ho => absurd hc ho, fun _ => hcomp, fun _ => hd⟩, untimed_afterReveal hc⟩
  · intro hfit
    by_cases hc : opensCommitment env b e
    · refine ⟨_, processOne_eq_ok.mpr ⟨b, hp, Or.inr ⟨hc, _, isEligible_eq_ok.mpr ⟨hfit.escrow hc, rfl⟩,
        hfit.demand hc, rfl⟩⟩, untimed_afterReveal hc⟩
    · exact ⟨_, processOne_eq_ok.mpr ⟨b, hp, Or.inl ⟨hc, hfit.voided hc, rfl⟩⟩, untimed_afterVoid hc⟩

lemma processOne_related (hsame : untimed a = untimed a') {a₁ : SealedBidAuction} {msg' : Msg env}
    (h : processOne env a msg e = .ok a₁) :
    ∃ a₂, processOne env a' msg' e = .ok a₂ ∧ untimed a₁ = untimed a₂ := by
  obtain ⟨b, hp, -⟩ := processOne_eq_ok.mp h
  obtain ⟨hfit, heq⟩ := (processOne_untimed _ b hp).1 a₁ h
  rw [untimed_eq_iff] at hsame
  have hp' : Processable env a' e b := by
    rw [hsame]
    exact ⟨hp.1, hp.2, hp.3, hp.4, hp.5, hp.6⟩
  have hfit' : EntryFits env a' e b := by
    rw [hsame]
    exact ⟨hfit.1, hfit.2, hfit.3⟩
  obtain ⟨a₂, h₂, heq₂⟩ := (processOne_untimed msg' b hp').2 hfit'
  refine ⟨a₂, h₂, ?_⟩
  rw [heq, heq₂, hsame]
  rfl

lemma exists_time (h : untimed a' = applied env a e b) : ∃ t, a' = { applied env a e b with lastVoidAt := t } :=
  ⟨a'.lastVoidAt, untimed_eq_iff.mp (show untimed (applied env a e b) = untimed a' from h.symm)⟩

lemma processOne_ne {a₁ a₂ : SealedBidAuction} {msg₁ msg₂ : Msg env} {e₁ e₂ : RevealEntry}
    (h₁ : processOne env a msg₁ e₁ = .ok a₁) (h₂ : processOne env a₁ msg₂ e₂ = .ok a₂) : e₂.bidId ≠ e₁.bidId := by
  obtain ⟨b, hp, -⟩ := processOne_eq_ok.mp h₁
  obtain ⟨-, heq⟩ := (processOne_untimed _ b hp).1 a₁ h₁
  obtain ⟨b₂, hp₂, -⟩ := processOne_eq_ok.mp h₂
  intro hid
  have hbids : a₁.bids = a.bids.set e₁.bidId (written env e₁ b) := congrArg SealedBidAuction.bids heq
  have hfound := hp₂.found
  rw [hbids, hid, List.getElem?_set_self (List.getElem?_eq_some_iff.mp hp.found).1] at hfound
  obtain rfl := Option.some.inj hfound
  have hfresh := hp₂.fresh
  rw [written_revealed] at hfresh
  cases hfresh

lemma processOne_swap {a₁ a₂ : SealedBidAuction} {msg₁ msg₂ : Msg env} {e₁ e₂ : RevealEntry}
    (h₁ : processOne env a msg₁ e₁ = .ok a₁) (h₂ : processOne env a₁ msg₂ e₂ = .ok a₂) :
    ∃ a₁' a₂', processOne env a msg₂ e₂ = .ok a₁' ∧ processOne env a₁' msg₁ e₁ = .ok a₂' ∧
      untimed a₂ = untimed a₂' := by
  have hne := processOne_ne h₁ h₂
  obtain ⟨b₁, hp₁, -⟩ := processOne_eq_ok.mp h₁
  obtain ⟨b₂, hp₂, -⟩ := processOne_eq_ok.mp h₂
  obtain ⟨hfit₁, heq₁⟩ := (processOne_untimed _ b₁ hp₁).1 a₁ h₁
  obtain ⟨hfit₂, heq₂⟩ := (processOne_untimed _ b₂ hp₂).1 a₂ h₂
  obtain ⟨t₁, rfl⟩ := exists_time heq₁
  have hfound₂ : a.bids[e₂.bidId]? = some b₂ := (List.getElem?_set_ne hne.symm).symm.trans hp₂.found
  have hcounter := hp₂.counter
  have hvoided₂ := hfit₂.voided
  have hdemand₂ := hfit₂.demand
  dsimp only [applied] at hcounter hvoided₂ hdemand₂
  have hp₂' : Processable env a e₂ b₂ := ⟨hfound₂, hp₂.2, hp₂.3, hp₂.4, hp₂.5, by omega⟩
  have hfit₂' : EntryFits env a e₂ b₂ := by
    refine ⟨fun hc => ?_, hfit₂.escrow, fun hc haff => ?_⟩
    · have := hvoided₂ hc
      omega
    · have := hdemand₂ hc haff
      omega
  obtain ⟨a₁', h₁', heq₁'⟩ := (processOne_untimed msg₂ b₂ hp₂').2 hfit₂'
  obtain ⟨t₂, rfl⟩ := exists_time heq₁'
  have hp₁' : Processable env { applied env a e₂ b₂ with lastVoidAt := t₂ } e₁ b₁ :=
    ⟨(List.getElem?_set_ne hne).trans hp₁.found, hp₁.2, hp₁.3, hp₁.4, hp₁.5, hcounter⟩
  have hfit₁' : EntryFits env { applied env a e₂ b₂ with lastVoidAt := t₂ } e₁ b₁ := by
    refine ⟨fun hc => ?_, hfit₁.escrow, fun hc haff => ?_⟩
    · have hfirst := hfit₁.voided hc
      dsimp only [applied]
      unfold voids at hvoided₂ ⊢
      rw [if_neg hc] at hvoided₂
      by_cases hc₂ : opensCommitment env b₂ e₂
      · rw [if_pos hc₂]
        exact hfirst
      · rw [if_neg hc₂]
        exact hvoided₂ hc₂
    · have hfirst := hfit₁.demand hc haff
      dsimp only [applied]
      by_cases hadd : opensCommitment env b₂ e₂ ∧ affordable a.config b₂.escrow e₂.quantity e₂.tick = true ∧
          e₂.tick = e₁.tick
      · obtain ⟨hc₂, haff₂, htick⟩ := hadd
        have hboth := hdemand₂ hc₂ haff₂
        unfold added at hboth ⊢
        rw [if_pos ⟨hc, haff, htick.symm⟩, htick] at hboth
        rw [if_pos ⟨hc₂, haff₂, htick⟩]
        omega
      · unfold added
        rw [if_neg hadd]
        exact hfirst
  obtain ⟨a₂', h₂', heq₂'⟩ := (processOne_untimed msg₁ b₁ hp₁').2 hfit₁'
  refine ⟨_, a₂', h₁', h₂', ?_⟩
  rw [heq₂, heq₂']
  unfold applied
  dsimp only
  rw [List.set_comm _ _ hne.symm, Nat.add_right_comm a.voidedBidCount]
  have hdemand : (fun t => a.demandByTick t + added env a.config e₁ b₁ t + added env a.config e₂ b₂ t) =
      fun t => a.demandByTick t + added env a.config e₂ b₂ t + added env a.config e₁ b₁ t := by
    funext t
    exact Nat.add_right_comm _ _ _
  rw [hdemand]

end Entry

/-! ### Chunks -/

section Chunks

variable {env : Env} {a a₁ a₂ : SealedBidAuction}

/-- One call presents a chunk of entries. -/
abbrev Chunk (env : Env) := Msg env × List RevealEntry

def processChunks (a : SealedBidAuction) (chunks : List (Chunk env)) : Except Revert SealedBidAuction :=
  chunks.foldlM (fun a c => a.processReveals env c.1 c.2) a

/-- The entries of the chunks, each with its call. -/
def roundsOf (chunks : List (Chunk env)) : List (Round env) :=
  chunks.flatMap fun c => c.2.map fun e => (c.1, e)

def entriesOf (chunks : List (Chunk env)) : List RevealEntry := chunks.flatMap Prod.snd

lemma roundsOf_entries (chunks : List (Chunk env)) : (roundsOf chunks).map Prod.snd = entriesOf chunks := by
  unfold roundsOf entriesOf
  rw [List.map_flatMap]
  congr 1
  funext c
  rw [List.map_map]
  exact List.map_id _

def processRound (a : SealedBidAuction) (r : Round env) : Except Revert SealedBidAuction :=
  processOne env a r.1 r.2

lemma processChunks_eq_ok (hs : a.state = .revealing) (chunks : List (Chunk env)) :
    processChunks a chunks = .ok a₁ ↔ (roundsOf chunks).foldlM processRound a = .ok a₁ := by
  unfold processChunks
  induction chunks generalizing a with
  | nil => rfl
  | cons c chunks ih =>
    have hrounds : roundsOf (c :: chunks) = (c.2.map fun e => (c.1, e)) ++ roundsOf chunks := rfl
    rw [foldlM_cons_eq_ok, hrounds, List.foldlM_append, bind_eq_ok, List.foldlM_map]
    constructor
    · rintro ⟨mid, hmid, hrest⟩
      obtain ⟨-, hsame⟩ := processReveals_sameHoldings hmid
      exact ⟨mid, (processReveals_eq_ok.mp hmid).2, (ih (hsame.state.trans hs)).mp hrest⟩
    · rintro ⟨mid, hmid, hrest⟩
      have hcall : a.processReveals env c.1 c.2 = .ok mid := processReveals_eq_ok.mpr ⟨hs, hmid⟩
      obtain ⟨-, hsame⟩ := processReveals_sameHoldings hcall
      exact ⟨mid, hcall, (ih (hsame.state.trans hs)).mpr hrest⟩

/-- Two schedules of the same entries leave the same auction but for the time of its last void. -/
theorem processChunks_perm (hs : a.state = .revealing) {chunks chunks' : List (Chunk env)}
    (hperm : (entriesOf chunks).Perm (entriesOf chunks')) (h : processChunks a chunks = .ok a₁) :
    ∃ a₂, processChunks a chunks' = .ok a₂ ∧ untimed a₁ = untimed a₂ := by
  have hentries : List.Forall₂ (fun e (r : Round env) => r.2 = e) (entriesOf chunks') (roundsOf chunks') := by
    rw [← roundsOf_entries, List.forall₂_map_left_iff]
    exact List.forall₂_same.mpr fun _ _ => rfl
  obtain ⟨mid, hsame, hmid⟩ := List.perm_comp_forall₂ hperm hentries
  rw [← roundsOf_entries, List.forall₂_map_left_iff] at hsame
  have hrun := (processChunks_eq_ok hs chunks).mp h
  obtain ⟨b, hb, hab⟩ := foldlM_related processRound (R := fun x y => untimed x = untimed y)
    (fun s s' r r' t hss hr hok => by
      unfold processRound at hok ⊢
      rw [hr]
      exact processOne_related hss hok) hsame rfl hrun
  obtain ⟨a₂, ha₂, hba⟩ := foldlM_perm processRound (R := fun x y => untimed x = untimed y)
    ⟨fun _ => rfl, Eq.symm, Eq.trans⟩ (fun s s' r t hss hok => processOne_related hss hok)
    (fun s r r' t u hr hr' => processOne_swap hr hr') hmid hb
  exact ⟨a₂, (processChunks_eq_ok hs chunks').mpr ha₂, hab.trans hba⟩

lemma finalize_untimed {msg : Msg env} (hsame : untimed a₁ = untimed a₂) (hw : a₂.WindowPassed msg.timestamp)
    {b₁ : SealedBidAuction} (h : a₁.finalize env msg = .ok b₁) :
    ∃ b₂, a₂.finalize env msg = .ok b₂ ∧ untimed b₁ = untimed b₂ := by
  obtain ⟨hs, -, hp, r, hr, hend⟩ := SealedBidAuction.finalize_eq_ok.mp h
  rw [untimed_eq_iff] at hsame
  generalize a₂.lastVoidAt = t at hsame
  subst hsame
  rcases hend with ⟨hc, hfits, rfl⟩ | ⟨hc, rfl⟩
  · exact ⟨_, SealedBidAuction.finalize_eq_ok.mpr ⟨hs, hw, hp, r, hr, Or.inl ⟨hc, hfits, rfl⟩⟩, rfl⟩
  · exact ⟨_, SealedBidAuction.finalize_eq_ok.mpr ⟨hs, hw, hp, r, hr, Or.inr ⟨hc, rfl⟩⟩, rfl⟩

lemma demandAt_book_counts (cfg : Config) (bids : List Bid) (t : Nat) :
    demandAt (book cfg bids) t = sumWhere (fun b => counts cfg b && b.tick == t) Bid.quantity bids := by
  unfold book demandAt
  induction bids with
  | nil => rfl
  | cons b bids ih =>
    rw [sumWhere_cons, ← ih, List.filterMap_cons]
    unfold standing
    cases hc : counts cfg b with
    | false => simp
    | true => simp [quantityWhere_cons]

/-- The entries may come in any order and in any calls, at any times: the same is recorded, and once the
dispute window has passed `finalize` does the same; and in every reachable state the tallies are those of the
recorded bids. -/
theorem reveal_order (env : Env) {registry : CommitteeRegistry} {cfg : Config} {a₀ : SealedBidAuction}
    (ha : initializeAuction registry cfg = .ok a₀) (sale quote : ERC20) (calls : List (Msg env × Call)) :
    (∀ (a a₁ : SealedBidAuction) (chunks chunks' : List (Chunk env)), a.state = .revealing →
      (entriesOf chunks).Perm (entriesOf chunks') → processChunks a chunks = .ok a₁ →
        ∃ a₂, processChunks a chunks' = .ok a₂ ∧ a₂ = { a₁ with lastVoidAt := a₂.lastVoidAt } ∧
          ∀ msg : Msg env, a₂.WindowPassed msg.timestamp → ∀ b₁, a₁.finalize env msg = .ok b₁ →
            ∃ b₂, a₂.finalize env msg = .ok b₂ ∧ b₂ = { b₁ with lastVoidAt := b₂.lastVoidAt }) ∧
      let a := (exec (step env) ⟨a₀, registry, sale, quote⟩ calls).auction
      (∀ t, a.demandByTick t = sumWhere (fun b => counts a.config b && b.tick == t) Bid.quantity a.bids) ∧
        a.processedBidCount = a.bids.countP Bid.revealed := by
  refine ⟨fun a a₁ chunks chunks' hs hperm h => ?_, ?_⟩
  · obtain ⟨a₂, h₂, hsame⟩ := processChunks_perm hs hperm h
    refine ⟨a₂, h₂, untimed_eq_iff.mp hsame, fun msg hw b₁ hb₁ => ?_⟩
    obtain ⟨b₂, hb₂, hb⟩ := finalize_untimed hsame hw hb₁
    exact ⟨b₂, hb₂, untimed_eq_iff.mp hb⟩
  · obtain ⟨hinv, -⟩ := solvent_unless_settled ha sale quote calls
    exact ⟨fun t => (hinv.tallied.demand t).trans (demandAt_book_counts _ _ t), hinv.tallied.processed⟩

end Chunks

/-! ### The same reveals, too late to finalize -/

theorem reveal_order_sample :
    (∀ (a a₁ : SealedBidAuction) (chunks chunks' : List (Chunk sampleEnv)), a.state = .revealing →
      (entriesOf chunks).Perm (entriesOf chunks') → processChunks a chunks = .ok a₁ →
        ∃ a₂, processChunks a chunks' = .ok a₂ ∧ a₂ = { a₁ with lastVoidAt := a₂.lastVoidAt } ∧
          ∀ msg : Msg sampleEnv, a₂.WindowPassed msg.timestamp → ∀ b₁, a₁.finalize sampleEnv msg = .ok b₁ →
            ∃ b₂, a₂.finalize sampleEnv msg = .ok b₂ ∧ b₂ = { b₁ with lastVoidAt := b₂.lastVoidAt }) ∧
      let a := (exec (step sampleEnv) sampleWorld sampleCalls).auction
      (∀ t, a.demandByTick t = sumWhere (fun b => counts a.config b && b.tick == t) Bid.quantity a.bids) ∧
        a.processedBidCount = a.bids.countP Bid.revealed :=
  reveal_order sampleEnv (show initializeAuction sampleRegistry sampleConfig = .ok sampleAuction from rfl)
    sampleToken sampleToken sampleCalls

/-- A reveal that voids bid 0, and one that records bid 1. -/
def voidingEntry : RevealEntry := ⟨0, 1, 0, 0, 2, [sampleLeaf 1]⟩

def recordingEntry : RevealEntry := ⟨1, 1, 0, 1, 1, [sampleLeaf 0]⟩

def voidedEarly : List (Chunk sampleEnv) := [(sampleRelay 22, [voidingEntry]), (sampleRelay 60, [recordingEntry])]

def voidedLate : List (Chunk sampleEnv) := [(sampleRelay 22, [recordingEntry]), (sampleRelay 60, [voidingEntry])]

/-- Of two schedules of the same entries one can be finalized at a time when the other cannot yet. -/
theorem finalize_depends_on_times : ¬∀ (a a₁ a₂ : SealedBidAuction) (chunks chunks' : List (Chunk sampleEnv)),
    a.state = .revealing → (entriesOf chunks).Perm (entriesOf chunks') → processChunks a chunks = .ok a₁ →
      processChunks a chunks' = .ok a₂ → ∀ msg : Msg sampleEnv, Succeeds (a₁.finalize sampleEnv msg) →
        Succeeds (a₂.finalize sampleEnv msg) := by
  intro h
  have hs : sampleRegistered.state = .revealing := by decide +kernel
  have hearly : ((processChunks sampleRegistered voidedEarly).toOption.any fun a =>
      (a.finalize sampleEnv (sampleRelay 70)).toOption.isSome) = true := by decide +kernel
  have hlate : ((processChunks sampleRegistered voidedLate).toOption.any fun a =>
      !(a.finalize sampleEnv (sampleRelay 70)).toOption.isSome) = true := by decide +kernel
  obtain ⟨a₁, ha₁, hok⟩ := (Option.any_eq_true _ _).mp hearly
  obtain ⟨a₂, ha₂, hno⟩ := (Option.any_eq_true _ _).mp hlate
  have hswapped : (entriesOf voidedEarly).Perm (entriesOf voidedLate) := List.Perm.swap _ _ _
  have hthen := h sampleRegistered a₁ a₂ voidedEarly voidedLate hs hswapped (toOption_eq_some.mp ha₁)
    (toOption_eq_some.mp ha₂) (sampleRelay 70) ⟨_, toOption_eq_some.mp (Option.isSome_iff_exists.mp hok).choose_spec⟩
  obtain ⟨b₂, hb₂⟩ := hthen
  rw [hb₂] at hno
  cases hno

end Peal.Auction
