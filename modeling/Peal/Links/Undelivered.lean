import Peal.Links.Retries

namespace Peal.Links.Account
open Peal.Fallible Peal.Runs

/-! # From the accepted send to the recipient's inbox -/

/-- A sealed receipt opening for an inbox, by what it seals. -/
structure OutboxEntry where
  account : Text
  opening : ReceiptOpening
  position : Int
  reference : Option Text
  requestId : Text
  deriving DecidableEq, Repr

/-- A call of `pay` after it has prepared its send. -/
inductive Paying where
  | submitting (x : Sent)
  | delivering (x : Sent) (position : Int)

def Paying.sent : Paying → Sent
  | .submitting x | .delivering x _ => x

/-- A pass over the outbox: the entries it has read and not tried yet, and those it could not deliver. -/
structure Flush where
  todo : List OutboxEntry
  remaining : List OutboxEntry

structure Sender where
  payer : Payer
  call : Option Paying
  outbox : List OutboxEntry
  flush : Option Flush
  posted : List OutboxEntry

/-- The steps of a payment's call and of a pass over the outbox; `account` is every other step. -/
inductive SenderEvent where
  | account (event : Event)
  | answered (env : OpEnvelope) (position now : Nat)
  | refused
  | reconciled (now : Nat)
  | threw
  | deliver (posted : Bool)
  | flushOutbox
  | tryNext (posted : Bool)
  | writeRemaining

def entryOf (x : Sent) (position : Int) : OutboxEntry :=
  ⟨x.details.receiverAccount, x.opening, position, x.details.reference, x.details.requestId⟩

/-- `v.history[v.history.length - 1]?.position ?? -1`. -/
def lastPosition (w : Wallet) : Int := ((w.history.getLast?.bind HistoryEntry.position).map Int.ofNat).getD (-1)

def outcomeOf (c : Crypto) (j : Journal) (now : Nat) : Option Reconciled :=
  j.view.bind fun read => (j.wallet.reconcile c read.1 read.2 now).toOption.map Prod.snd

variable (c : Crypto) (prover : Prover) (v : Viem) (serves : Namespace → Bool)

def submittingCall (s : Sender) : Except PayError Sent :=
  match s.call with
  | some (.submitting x) => .ok x
  | _ => .error (thrown "no payment is being submitted")

def isPay : Event → Bool
  | .pay .. => true
  | _ => false

/-- A reload, which ends whatever runs on the page. -/
def isCrash : Event → Bool
  | .journal .crash => true
  | _ => false

/-- The call a step of the account begins, ends or leaves. -/
def callAfter (s : Sender) (payer : Payer) : Event → Option Paying
  | .pay .. => payer.sends.getLast?.map .submitting
  | .journal .crash => none
  | _ => s.call

def senderStep (s : Sender) : SenderEvent → Except PayError Sender
  | .account event => do
    -- one call at a time holds the account's lock
    require (¬(s.call.isSome = true ∧ isPay event = true)) (thrown "locked")
    let payer ← step c prover v serves s.payer event
    return { s with
      payer := payer
      call := callAfter s payer event
      flush := if isCrash event = true then none else s.flush }
  | .answered env position now => do
    let x ← submittingCall s
    let payer ← step c prover v serves s.payer (.journal (.accepted env position now))
    return { s with payer := payer, call := some (.delivering x position) }
  | .refused => do
    let _ ← submittingCall s
    let payer ← step c prover v serves s.payer (.journal .refused)
    return { s with payer := payer, call := none }
  | .reconciled now => do
    let x ← submittingCall s
    let payer ← step c prover v serves s.payer (.journal (.settle now))
    return { s with
      payer := payer
      call := if outcomeOf c s.payer.journal now = some .committed then
          some (.delivering x (lastPosition payer.journal.wallet))
        else none }
  | .threw => .ok { s with call := none }
  | .deliver posted =>
    match s.call with
    | some (.delivering x position) =>
      if posted then .ok { s with call := none, posted := s.posted ++ [entryOf x position] }
      else .ok { s with call := none, outbox := s.outbox ++ [entryOf x position] }
    | _ => .error (thrown "nothing to deliver")
  | .flushOutbox => .ok { s with flush := some ⟨s.outbox, []⟩ }
  | .tryNext posted =>
    match s.flush with
    | some ⟨e :: todo, remaining⟩ =>
      if posted then .ok { s with flush := some ⟨todo, remaining⟩, posted := s.posted ++ [e] }
      else .ok { s with flush := some ⟨todo, remaining ++ [e]⟩ }
    | _ => .error (thrown "nothing to try")
  | .writeRemaining =>
    match s.flush with
    | some ⟨[], remaining⟩ => .ok { s with outbox := remaining, flush := none }
    | _ => .error (thrown "entries left to try")

def Sender.start (payer : Payer) : Sender := ⟨payer, none, [], none, []⟩

/-- The opening of the send has been posted to its recipient's inbox, or waits in the outbox. -/
def HasEntry (entries : List OutboxEntry) (x : Sent) : Prop :=
  ∃ e ∈ entries, e.opening = x.opening ∧ e.account = x.details.receiverAccount

instance (entries : List OutboxEntry) (x : Sent) : Decidable (HasEntry entries x) :=
  inferInstanceAs (Decidable (∃ e ∈ entries, _))

/-- Every accepted payment is posted or queued, or its call is still under way. -/
def Delivered (s : Sender) : Prop :=
  ∀ x ∈ s.payer.accepted, HasEntry (s.posted ++ s.outbox) x ∨ s.call.map Paying.sent = some x

/-- The step leaves the call of an accepted payment before its delivery. -/
def Abandons (s : Sender) : SenderEvent → Prop
  | .refused | .threw | .account (.journal .crash) => ∃ call ∈ s.call, call.sent ∈ s.payer.accepted
  | .reconciled now => outcomeOf c s.payer.journal now ≠ some .committed ∧ ∃ call ∈ s.call, call.sent ∈ s.payer.accepted
  | _ => False

/-- The ledger accepts a payment whose call is gone. -/
def Belated (s : Sender) : SenderEvent → Prop
  | .account (.journal (.finalized env)) => ∃ out, s.payer.journal.ledger.apply c env = .ok out ∧
    ∃ x, sendOf s.payer.sends env.comNew = some x ∧ s.call.map Paying.sent ≠ some x
  | _ => False

/-- A delivery fails while a pass over the outbox is between its read and its write. -/
def Overwritten (s : Sender) : SenderEvent → Prop
  | .deliver false => s.flush.isSome = true
  | _ => False

/-- The payment's call outlives its acceptance, and no pass over the outbox overlaps a failed delivery. -/
def Unbroken (s : Sender) (event : SenderEvent) : Prop := ¬Abandons c s event ∧ ¬Belated c s event ∧ ¬Overwritten s event

variable {c prover v serves} {first : Wallet} {s s' : Sender} {payer payer' : Payer} {lines : List Line}

/-! ### What a step accepts -/

lemma journal_answers {j j' : Journal} {action : Action} (h : journalStep c prover j action = .ok j') :
    j'.answers = j.answers ∨ ∃ env out, action = .finalized env ∧ j.ledger.apply c env = .ok out ∧
      j'.answers = j.answers ++ [(env, out.2.position)] := by
  cases action with
  | finalized env =>
    unfold journalStep at h
    simp only [bind_eq_ok, require_eq_ok] at h
    obtain ⟨-, -, h⟩ := h
    cases happly : j.ledger.apply c env with
    | error e =>
      rw [happly] at h
      cases h
      exact .inl rfl
    | ok out =>
      rw [happly] at h
      cases h
      exact .inr ⟨env, out, rfl, happly, rfl⟩
  | save | refused | read | crash | expired =>
    cases h
    exact .inl rfl
  | _ =>
    unfold journalStep at h
    simp only [bind_eq_ok, pure_eq_ok] at h
    grind

lemma mem_accepted {x : Sent} : x ∈ payer.accepted ↔ ∃ r ∈ payer.journal.answers, sendOf payer.sends r.1.comNew = some x := by
  simp [Payer.accepted, Payer.operations]

lemma accepted_step {P : Line → Prop} (hlineage : Lineage c first P payer lines) {event : Event}
    (h : step c prover v serves payer event = .ok payer') (hfresh : payer'.seen.Nodup) {x : Sent}
    (hx : x ∈ payer'.accepted) : x ∈ payer.accepted ∨ ∃ env out, event = .journal (.finalized env) ∧
      payer.journal.ledger.apply c env = .ok out ∧ sendOf payer.sends env.comNew = some x := by
  obtain ⟨r, hr, hsend⟩ := mem_accepted.mp hx
  cases event with
  | pay target intentId approval m =>
    unfold step at h
    simp only [bind_eq_ok, pure_eq_ok] at h
    obtain ⟨⟨requests, w, y⟩, -, rfl⟩ := h
    have hout : y.comNew ∉ payer.seen := fun hin =>
      (List.nodup_append.mp hfresh).2.2 _ hin _ List.mem_cons_self rfl
    have hne : r.1.comNew ≠ y.comNew := fun heq => hout (heq ▸ hlineage.answered r hr)
    have hmine : ∀ z ∈ some y, z.comNew = y.comNew := by
      rintro z ⟨⟩
      rfl
    have hsame : sendOf (payer.sends ++ [y]) r.1.comNew = sendOf payer.sends r.1.comNew := sendOf_other hmine hne
    exact .inl (mem_accepted.mpr ⟨r, hr, hsame.symm.trans hsend⟩)
  | journal action =>
    unfold step at h
    simp only [bind_eq_ok, mapError_eq_ok, pure_eq_ok] at h
    obtain ⟨j, hj, rfl⟩ := h
    rcases journal_answers hj with hsame | ⟨env, out, rfl, happly, hmore⟩
    · exact .inl (mem_accepted.mpr ⟨r, hsame ▸ hr, hsend⟩)
    · rw [hmore] at hr
      rcases List.mem_append.mp hr with hin | hlast
      · exact .inl (mem_accepted.mpr ⟨r, hin, hsend⟩)
      · rw [List.mem_singleton.mp hlast] at hsend
        exact .inr ⟨env, out, rfl, happly, hsend⟩
  | note call =>
    unfold step at h
    simp only [bind_eq_ok, require_eq_ok, mapError_eq_ok, pure_eq_ok] at h
    obtain ⟨-, -, w, -, rfl⟩ := h
    exact .inl (mem_accepted.mpr ⟨r, hr, hsend⟩)
  | requests call =>
    unfold step at h
    simp only [bind_eq_ok, mapError_eq_ok, pure_eq_ok] at h
    obtain ⟨requests, -, rfl⟩ := h
    exact .inl (mem_accepted.mpr ⟨r, hr, hsend⟩)
  | bind profile =>
    cases h
    exact .inl (mem_accepted.mpr ⟨r, hr, hsend⟩)
  | backup =>
    cases h
    exact .inl (mem_accepted.mpr ⟨r, hr, hsend⟩)
  | restore w =>
    unfold step at h
    simp only [bind_eq_ok, require_eq_ok, pure_eq_ok] at h
    obtain ⟨-, -, rfl⟩ := h
    exact .inl (mem_accepted.mpr ⟨r, hr, hsend⟩)

/-! ### Runs of a sender -/

/-- An entry a pass has read stays in the outbox until it is posted or written back. -/
def Flush.Covers (f : Flush) (s : Sender) : Prop := ∀ e ∈ s.outbox, e ∈ s.posted ∨ e ∈ f.todo ∨ e ∈ f.remaining

structure Kept (c : Crypto) (first : Wallet) (s : Sender) : Prop where
  lineage : ∃ lines, Lineage c first (fun _ => True) s.payer lines
  delivered : Delivered s
  covered : ∀ f ∈ s.flush, f.Covers s

lemma HasEntry.mono {entries entries' : List OutboxEntry} {x : Sent} (h : HasEntry entries x)
    (hsub : ∀ e ∈ entries, e ∈ entries') : HasEntry entries' x := by
  obtain ⟨e, he, hmatch⟩ := h
  exact ⟨e, hsub e he, hmatch⟩

/-- A step of the account that accepts nothing but what the running call made, and does not end the call of an
accepted payment. -/
lemma Kept.payer_moves (hs : prover.Sound c) (h : Kept c first s) {event : Event} {payer : Payer}
    (hstep : step c prover v serves s.payer event = .ok payer) (hfresh : payer.seen.Nodup) (call : Option Paying)
    (hcall : ∀ x ∈ s.payer.accepted, s.call.map Paying.sent = some x → call.map Paying.sent = some x)
    (hnew : ∀ env out x, event = .journal (.finalized env) → s.payer.journal.ledger.apply c env = .ok out →
      sendOf s.payer.sends env.comNew = some x → call.map Paying.sent = some x) :
    (∃ lines, Lineage c first (fun _ => True) payer lines) ∧ Delivered { s with payer := payer, call := call } := by
  obtain ⟨lines, hlineage⟩ := h.lineage
  refine ⟨hlineage.step hs (fun _ _ _ => trivial) ?_ hstep hfresh, fun x hx => ?_⟩
  · cases event <;> first | exact trivial | exact fun _ _ _ _ _ _ _ _ => trivial
  · rcases accepted_step hlineage hstep hfresh hx with hbefore | ⟨env, out, hevent, happly, hsend⟩
    · rcases h.delivered x hbefore with hentry | hrunning
      · exact .inl hentry
      · exact .inr (hcall x hbefore hrunning)
    · exact .inr (hnew env out x hevent happly hsend)

lemma submittingCall_ok {x : Sent} (h : submittingCall s = .ok x) : s.call = some (.submitting x) := by
  unfold submittingCall at h
  split at h
  · next hcall =>
    cases h
    exact hcall
  · cases h

lemma senderStep_payer {event : SenderEvent} (h : senderStep c prover v serves s event = .ok s') :
    s'.payer = s.payer ∨ ∃ e, step c prover v serves s.payer e = .ok s'.payer := by
  cases event with
  | account e =>
    simp only [senderStep, bind_eq_ok, pure_eq_ok] at h
    obtain ⟨-, -, payer, hpayer, rfl⟩ := h
    exact .inr ⟨e, hpayer⟩
  | answered env position now =>
    simp only [senderStep, bind_eq_ok, pure_eq_ok] at h
    obtain ⟨x, -, payer, hpayer, rfl⟩ := h
    exact .inr ⟨_, hpayer⟩
  | refused =>
    simp only [senderStep, bind_eq_ok, pure_eq_ok] at h
    obtain ⟨x, -, payer, hpayer, rfl⟩ := h
    exact .inr ⟨_, hpayer⟩
  | reconciled now =>
    simp only [senderStep, bind_eq_ok, pure_eq_ok] at h
    obtain ⟨x, -, payer, hpayer, rfl⟩ := h
    exact .inr ⟨_, hpayer⟩
  | threw =>
    cases h
    exact .inl rfl
  | deliver posted =>
    unfold senderStep at h
    dsimp only at h
    split at h
    · cases posted <;> cases h <;> exact .inl rfl
    · cases h
  | flushOutbox =>
    cases h
    exact .inl rfl
  | tryNext posted =>
    unfold senderStep at h
    dsimp only at h
    split at h
    · cases posted <;> cases h <;> exact .inl rfl
    · cases h
  | writeRemaining =>
    unfold senderStep at h
    dsimp only at h
    split at h
    · cases h
      exact .inl rfl
    · cases h

lemma Kept.account (hs : prover.Sound c) (h : Kept c first s) {event : Event}
    (hunbroken : Unbroken c s (.account event)) (hstep : senderStep c prover v serves s (.account event) = .ok s')
    (hfresh : s'.payer.seen.Nodup) : Kept c first s' := by
  obtain ⟨habandons, hbelated, -⟩ := hunbroken
  simp only [senderStep, bind_eq_ok, require_eq_ok, pure_eq_ok] at hstep
  obtain ⟨-, hlocked, payer, hpayer, rfl⟩ := hstep
  have hcall : ∀ x ∈ s.payer.accepted, s.call.map Paying.sent = some x →
      (callAfter s payer event).map Paying.sent = some x := by
    intro x hx hrunning
    obtain ⟨call, hsome, hsent⟩ := Option.map_eq_some_iff.mp hrunning
    cases event with
    | pay target intentId approval m =>
      refine absurd ⟨?_, rfl⟩ hlocked
      rw [hsome]
      rfl
    | journal action =>
      cases action with
      | crash => exact absurd ⟨call, hsome, hsent ▸ hx⟩ habandons
      | _ => exact hrunning
    | _ => exact hrunning
  have hnew : ∀ env out x, event = .journal (.finalized env) → s.payer.journal.ledger.apply c env = .ok out →
      sendOf s.payer.sends env.comNew = some x → (callAfter s payer event).map Paying.sent = some x := by
    rintro env out x rfl happly hsend
    by_contra hgone
    exact hbelated ⟨out, happly, x, hsend, hgone⟩
  obtain ⟨hlineage, hdelivered⟩ := h.payer_moves hs hpayer hfresh (callAfter s payer event) hcall hnew
  refine ⟨hlineage, hdelivered, ?_⟩
  intro f hf
  have hsame : s.flush = some f := by
    have hflush : (if isCrash event = true then none else s.flush) = some f := hf
    split_ifs at hflush
    exact hflush
  exact h.covered f hsame

lemma Kept.call_moves (hs : prover.Sound c) (h : Kept c first s) {action : Action} {payer : Payer}
    (hstep : step c prover v serves s.payer (.journal action) = .ok payer) (hfresh : payer.seen.Nodup)
    (hother : ∀ env, action ≠ .finalized env) (call : Option Paying)
    (hcall : ∀ x ∈ s.payer.accepted, s.call.map Paying.sent = some x → call.map Paying.sent = some x) :
    Kept c first { s with payer := payer, call := call } := by
  obtain ⟨hlineage, hdelivered⟩ := h.payer_moves hs hstep hfresh call hcall fun env _ _ hevent =>
    absurd (Event.journal.inj hevent) (hother env)
  exact ⟨hlineage, hdelivered, h.covered⟩

lemma Delivered.entries (h : Delivered s) {call : Option Paying} {outbox posted : List OutboxEntry}
    {flush : Option Flush} (hsub : ∀ e ∈ s.posted ++ s.outbox, e ∈ posted ++ outbox)
    (hcall : ∀ x ∈ s.payer.accepted, s.call.map Paying.sent = some x →
      HasEntry (posted ++ outbox) x ∨ call.map Paying.sent = some x) :
    Delivered ⟨s.payer, call, outbox, flush, posted⟩ := by
  intro x hx
  rcases h x hx with ⟨e, he, hmatch⟩ | hrunning
  · exact .inl ⟨e, hsub e he, hmatch⟩
  · exact hcall x hx hrunning

lemma Kept.delivers (h : Kept c first s) {posted : Bool} (hunbroken : ¬Overwritten s (.deliver posted))
    (hstep : senderStep c prover v serves s (.deliver posted) = .ok s') : Kept c first s' := by
  unfold senderStep at hstep
  dsimp only at hstep
  split at hstep
  · next x position hcall =>
    have hmine : ∀ {entries : List OutboxEntry}, entryOf x position ∈ entries → ∀ y ∈ s.payer.accepted,
        s.call.map Paying.sent = some y → HasEntry entries y ∨ (none : Option Paying).map Paying.sent = some y := by
      intro entries hin y _ hrunning
      rw [hcall] at hrunning
      obtain rfl := Option.some.inj hrunning
      exact .inl ⟨entryOf x position, hin, rfl, rfl⟩
    cases posted with
    | true =>
      cases hstep
      refine ⟨h.lineage, h.delivered.entries ?_ (hmine (by simp)), fun f hf e he => ?_⟩
      · simp only [List.mem_append]
        tauto
      · rcases h.covered f hf e he with hposted | hin
        · exact .inl (List.mem_append_left _ hposted)
        · exact .inr hin
    | false =>
      cases hstep
      refine ⟨h.lineage, h.delivered.entries ?_ (hmine (by simp)), fun f hf => ?_⟩
      · simp only [List.mem_append]
        tauto
      · have hsome : s.flush = some f := hf
        refine absurd ?_ hunbroken
        show s.flush.isSome = true
        rw [hsome]
        rfl
  · cases hstep

lemma Kept.tries (h : Kept c first s) {posted : Bool}
    (hstep : senderStep c prover v serves s (.tryNext posted) = .ok s') : Kept c first s' := by
  unfold senderStep at hstep
  dsimp only at hstep
  split at hstep
  · next e todo remaining hflush =>
    have hcovered := h.covered _ hflush
    cases posted with
    | true =>
      cases hstep
      refine ⟨h.lineage, h.delivered.entries ?_ (fun _ _ hrunning => .inr hrunning), ?_⟩
      · simp only [List.mem_append]
        tauto
      · rintro f ⟨⟩ e' he'
        rcases hcovered e' he' with hposted | htodo | hremaining
        · exact .inl (List.mem_append_left _ hposted)
        · rcases List.mem_cons.mp htodo with rfl | hlater
          · exact .inl (by simp)
          · exact .inr (.inl hlater)
        · exact .inr (.inr hremaining)
    | false =>
      cases hstep
      refine ⟨h.lineage, h.delivered, ?_⟩
      rintro f ⟨⟩ e' he'
      rcases hcovered e' he' with hposted | htodo | hremaining
      · exact .inl hposted
      · rcases List.mem_cons.mp htodo with rfl | hlater
        · exact .inr (.inr (by simp))
        · exact .inr (.inl hlater)
      · exact .inr (.inr (List.mem_append_left _ hremaining))
  · cases hstep

lemma Kept.writes (h : Kept c first s) (hstep : senderStep c prover v serves s .writeRemaining = .ok s') :
    Kept c first s' := by
  unfold senderStep at hstep
  dsimp only at hstep
  split at hstep
  · next remaining hflush =>
    have hcovered := h.covered _ hflush
    cases hstep
    refine ⟨h.lineage, h.delivered.entries ?_ (fun _ _ hrunning => .inr hrunning), by rintro f ⟨⟩⟩
    intro e he
    rcases List.mem_append.mp he with hposted | hqueued
    · exact List.mem_append_left _ hposted
    · rcases hcovered e hqueued with hposted | htodo | hremaining
      · exact List.mem_append_left _ hposted
      · cases htodo
      · exact List.mem_append_right _ hremaining
  · cases hstep

lemma Kept.step (hs : prover.Sound c) (h : Kept c first s) {event : SenderEvent} (hunbroken : Unbroken c s event)
    (hstep : senderStep c prover v serves s event = .ok s') (hfresh : s'.payer.seen.Nodup) : Kept c first s' := by
  obtain ⟨habandons, -, hoverwritten⟩ := id hunbroken
  cases event with
  | account event => exact h.account hs hunbroken hstep hfresh
  | answered env position now =>
    simp only [senderStep, bind_eq_ok, pure_eq_ok] at hstep
    obtain ⟨x, hx, payer, hpayer, rfl⟩ := hstep
    refine h.call_moves hs hpayer hfresh (fun _ => by simp) _ fun y _ hrunning => ?_
    rw [submittingCall_ok hx] at hrunning
    exact hrunning
  | refused =>
    simp only [senderStep, bind_eq_ok, pure_eq_ok] at hstep
    obtain ⟨x, hx, payer, hpayer, rfl⟩ := hstep
    refine h.call_moves hs hpayer hfresh (fun _ => by simp) _ fun y hy hrunning => ?_
    obtain ⟨call, hsome, hsent⟩ := Option.map_eq_some_iff.mp hrunning
    exact absurd ⟨call, hsome, hsent ▸ hy⟩ habandons
  | reconciled now =>
    simp only [senderStep, bind_eq_ok, pure_eq_ok] at hstep
    obtain ⟨x, hx, payer, hpayer, rfl⟩ := hstep
    refine h.call_moves hs hpayer hfresh (fun _ => by simp) _ fun y hy hrunning => ?_
    obtain ⟨call, hsome, hsent⟩ := Option.map_eq_some_iff.mp hrunning
    by_cases hcommitted : outcomeOf c s.payer.journal now = some .committed
    · rw [submittingCall_ok hx] at hrunning
      rw [if_pos hcommitted]
      exact hrunning
    · exact absurd ⟨hcommitted, call, hsome, hsent ▸ hy⟩ habandons
  | threw =>
    cases hstep
    refine ⟨h.lineage, h.delivered.entries (fun _ he => he) fun x hx hrunning => ?_, h.covered⟩
    obtain ⟨call, hsome, hsent⟩ := Option.map_eq_some_iff.mp hrunning
    exact absurd ⟨call, hsome, hsent ▸ hx⟩ habandons
  | deliver posted => exact h.delivers hoverwritten hstep
  | flushOutbox =>
    cases hstep
    refine ⟨h.lineage, h.delivered, ?_⟩
    rintro f ⟨⟩ e he
    exact .inr (.inl he)
  | tryNext posted => exact h.tries hstep
  | writeRemaining => exact h.writes hstep

lemma seen_senderStep {event : SenderEvent} (h : senderStep c prover v serves s event = .ok s') :
    s.payer.seen <+: s'.payer.seen := by
  rcases senderStep_payer h with hsame | ⟨e, hstep⟩
  · rw [hsame]
  · exact seen_step hstep

/-- No commitment of the run is drawn twice. -/
def DrawsOnce (c : Crypto) (prover : Prover) (v : Viem) (serves : Namespace → Bool) (s : Sender)
    (events : List SenderEvent) : Prop := (exec (senderStep c prover v serves) s events).payer.seen.Nodup

/-- In every run in which the calls of accepted payments go on to their delivery, every accepted payment is posted,
queued or about to be. -/
theorem sends_delivered (hs : prover.Sound c) (namespaceHex : Text) (profile : Option BoundProfile)
    (requests : PaymentRequests.Table) {w : Wallet} {l : Ledger} {view : AccountView} (hidle : w.pending = none)
    (hview : l.account w.account = some view) (hcom : view.com = w.commitment c) {events : List SenderEvent}
    (hdrawn : DrawsOnce c prover v serves (Sender.start (Payer.start c namespaceHex profile requests w l)) events)
    (hunbroken : Along (senderStep c prover v serves) (Unbroken c)
      (Sender.start (Payer.start c namespaceHex profile requests w l)) events) :
    Throughout (senderStep c prover v serves) Delivered
      (Sender.start (Payer.start c namespaceHex profile requests w l)) events := by
  have hfresh := along_of_growing (senderStep c prover v serves) (fun s => s.payer.seen)
    (fun _ _ _ => seen_senderStep) hdrawn
  have hstart : Kept c w (Sender.start (Payer.start c namespaceHex profile requests w l)) :=
    ⟨⟨_, Lineage.start namespaceHex profile requests hidle hview hcom trivial⟩, fun x hx => (by cases hx),
      by rintro f ⟨⟩⟩
  have hrun := throughout_along (senderStep c prover v serves) (I := Kept c w) ?_ hstart
    (along_and (senderStep c prover v serves) hfresh hunbroken)
  · exact fun n => (hrun n).delivered
  · rintro s event s' h ⟨hseen, hstays⟩ hstep
    rw [advance_of_ok (senderStep c prover v serves) hstep] at hseen
    exact h.step hs hstays hstep hseen

/-! ### A payment committed by a later reconciliation -/

def startsPayment : SenderEvent → Bool
  | .account event => isPay event
  | _ => false

/-- An accepted payment is nowhere under way: no call runs, and no entry is queued or posted. -/
structure Stranded (x : Sent) (s : Sender) : Prop where
  accepted : x ∈ s.payer.accepted
  idle : s.call = none
  outbox : s.outbox = []
  posted : s.posted = []
  flush : ∀ f ∈ s.flush, f.todo = [] ∧ f.remaining = []

lemma accepted_stays {event : Event} (hpay : isPay event = false) (h : step c prover v serves payer event = .ok payer')
    {x : Sent} (hx : x ∈ payer.accepted) : x ∈ payer'.accepted := by
  obtain ⟨r, hr, hsend⟩ := mem_accepted.mp hx
  cases event with
  | pay target intentId approval m => cases hpay
  | journal action =>
    unfold step at h
    simp only [bind_eq_ok, mapError_eq_ok, pure_eq_ok] at h
    obtain ⟨j, hj, rfl⟩ := h
    rcases journal_answers hj with hsame | ⟨env, out, -, -, hmore⟩
    · exact mem_accepted.mpr ⟨r, hsame ▸ hr, hsend⟩
    · exact mem_accepted.mpr ⟨r, hmore ▸ List.mem_append_left _ hr, hsend⟩
  | note call =>
    unfold step at h
    simp only [bind_eq_ok, require_eq_ok, mapError_eq_ok, pure_eq_ok] at h
    obtain ⟨-, -, w, -, rfl⟩ := h
    exact hx
  | requests call =>
    unfold step at h
    simp only [bind_eq_ok, mapError_eq_ok, pure_eq_ok] at h
    obtain ⟨requests, -, rfl⟩ := h
    exact hx
  | bind profile =>
    cases h
    exact hx
  | backup =>
    cases h
    exact hx
  | restore w =>
    unfold step at h
    simp only [bind_eq_ok, require_eq_ok, pure_eq_ok] at h
    obtain ⟨-, -, rfl⟩ := h
    exact hx

lemma Stranded.step {x : Sent} (h : Stranded x s) {event : SenderEvent} (hpay : startsPayment event = false)
    (hstep : senderStep c prover v serves s event = .ok s') : Stranded x s' := by
  have hcall : ∀ y, submittingCall s ≠ .ok y := by
    intro y hy
    have hsome := submittingCall_ok hy
    rw [h.idle] at hsome
    cases hsome
  cases event with
  | account event =>
    simp only [senderStep, bind_eq_ok, pure_eq_ok] at hstep
    obtain ⟨-, -, payer, hpayer, rfl⟩ := hstep
    refine ⟨accepted_stays hpay hpayer h.accepted, ?_, h.outbox, h.posted, ?_⟩
    · cases event with
      | pay target intentId approval m => cases hpay
      | journal action =>
        cases action with
        | crash => rfl
        | _ => exact h.idle
      | _ => exact h.idle
    · intro f hf
      have hflush : (if isCrash event = true then none else s.flush) = some f := hf
      split_ifs at hflush
      exact h.flush f hflush
  | answered env position now =>
    simp only [senderStep, bind_eq_ok] at hstep
    obtain ⟨y, hy, -⟩ := hstep
    exact absurd hy (hcall y)
  | refused =>
    simp only [senderStep, bind_eq_ok] at hstep
    obtain ⟨y, hy, -⟩ := hstep
    exact absurd hy (hcall y)
  | reconciled now =>
    simp only [senderStep, bind_eq_ok] at hstep
    obtain ⟨y, hy, -⟩ := hstep
    exact absurd hy (hcall y)
  | threw =>
    cases hstep
    exact ⟨h.accepted, rfl, h.outbox, h.posted, h.flush⟩
  | deliver posted =>
    simp only [senderStep, h.idle] at hstep
    cases hstep
  | flushOutbox =>
    cases hstep
    refine ⟨h.accepted, h.idle, h.outbox, h.posted, ?_⟩
    rintro f ⟨⟩
    exact ⟨h.outbox, rfl⟩
  | tryNext posted =>
    unfold senderStep at hstep
    dsimp only at hstep
    split at hstep
    · next e todo remaining hflush =>
      have hempty := (h.flush _ hflush).1
      cases hempty
    · cases hstep
  | writeRemaining =>
    unfold senderStep at hstep
    dsimp only at hstep
    split at hstep
    · next remaining hflush =>
      cases hstep
      exact ⟨h.accepted, h.idle, (h.flush _ hflush).2, h.posted, by rintro f ⟨⟩⟩
    · cases hstep

lemma Stranded.exec {x : Sent} (h : Stranded x s) {events : List SenderEvent}
    (hpay : ∀ event ∈ events, startsPayment event = false) :
    Stranded x (Runs.exec (senderStep c prover v serves) s events) := by
  have halong : Along (senderStep c prover v serves) (fun _ event => startsPayment event = false) s events :=
    along_of_forall (senderStep c prover v serves) (fun event hevent _ => hpay event hevent) s
  exact exec_invariant_along (senderStep c prover v serves) (fun _ _ _ hs hok hstep => hs.step hok hstep) h halong

lemma Stranded.not_delivered {x : Sent} (h : Stranded x s) : ¬Delivered s := by
  intro hdelivered
  rcases hdelivered x h.accepted with ⟨e, he, -⟩ | hrunning
  · rw [h.posted, h.outbox] at he
    cases he
  · rw [h.idle] at hrunning
    cases hrunning

section Sample

def deliveryStep : Sender → SenderEvent → Except PayError Sender :=
  senderStep sampleCrypto sampleProver noViem PaymentRequests.servesAll

def deliveryStart : Sender := Sender.start checkoutStart

def firstEnvelope : OpEnvelope := submitted noViem checkoutStart checkout firstMoment

/-- A payment is answered, its delivery fails, and a pass over the outbox posts it. -/
def deliveredRun : List SenderEvent := (acceptance noViem checkoutStart checkout firstMoment).map .account ++
  [.answered firstEnvelope 0 1300, .account (.journal .save), .deliver false, .flushOutbox, .tryNext true, .writeRemaining]

lemma not_belated {env : OpEnvelope} (h : s.call.map Paying.sent = sendOf s.payer.sends env.comNew) :
    ¬Belated c s (.account (.journal (.finalized env))) := by
  rintro ⟨-, -, x, hsend, hgone⟩
  exact hgone (h.trans hsend)

lemma deliveredRun_unbroken : Along deliveryStep (Unbroken sampleCrypto) deliveryStart deliveredRun :=
  ⟨⟨id, id, id⟩, ⟨id, id, id⟩, ⟨id, id, id⟩, ⟨id, id, id⟩, ⟨id, not_belated (by decide +kernel), id⟩, ⟨id, id, id⟩,
    ⟨id, id, id⟩, ⟨id, id, by show ¬_ = true; decide +kernel⟩, ⟨id, id, id⟩, ⟨id, id, id⟩, ⟨id, id, id⟩, trivial⟩

lemma deliveredRun_drawn : DrawsOnce sampleCrypto sampleProver noViem PaymentRequests.servesAll deliveryStart
    deliveredRun := by
  unfold DrawsOnce
  decide +kernel

theorem sends_delivered_sample : Delivered (exec deliveryStep deliveryStart (deliveredRun.take 11)) :=
  sends_delivered sampleProver_sound checkoutRequest.namespaceHex none
    (PaymentRequests.empty.put PaymentRequests.sampleId checkoutRow) (show fundedWallet.pending = none from rfl)
    (show fundedLedger.account fundedWallet.account =
      some ⟨fundedWallet.account, fundedWallet.commitment sampleCrypto, 1⟩ by decide +kernel) rfl deliveredRun_drawn
    deliveredRun_unbroken 11

/-- The answer is lost in a reload; the reconciliation of the loaded page commits the send. -/
def undeliveredRun : List SenderEvent := firstCheckout.map .account

def undelivered : Sender := exec deliveryStep deliveryStart undeliveredRun

/-- The committed payment is not posted, and no later reconciliation, sync or pass over the outbox posts it. -/
theorem reconciled_undelivered :
    (undelivered.payer.journal.wallet.pending = none ∧ undelivered.payer.journal.wallet.balance = 500) ∧
      undelivered.payer.seen.Nodup ∧
      ∀ later, (∀ event ∈ later, startsPayment event = false) → ¬Delivered (exec deliveryStep undelivered later) := by
  have hcall : undelivered.call.isNone = true := by decide +kernel
  have hflush : undelivered.flush.isNone = true := by decide +kernel
  have haccepted : undelivered.payer.accepted ≠ [] := by decide +kernel
  obtain ⟨x, hx⟩ := List.exists_mem_of_ne_nil _ haccepted
  have hstranded : Stranded x undelivered := by
    refine ⟨hx, Option.isNone_iff_eq_none.mp hcall, by decide +kernel, by decide +kernel, ?_⟩
    rw [Option.isNone_iff_eq_none.mp hflush]
    rintro f ⟨⟩
  refine ⟨by decide +kernel, by decide +kernel, fun later hlater => ?_⟩
  exact (hstranded.exec hlater).not_delivered

end Sample

end Peal.Links.Account
