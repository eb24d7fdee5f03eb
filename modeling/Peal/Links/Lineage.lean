import Peal.Links.Account

namespace Peal.Links.Account
open Peal.Fallible Peal.Runs

/-! # The line of operations behind a commitment

Each commitment of an account is drawn once, so it names the operations that led to it, and with them the payments
sent. -/

/-- A commitment the account has had, and the operations that led to it from the first wallet of the run. -/
structure Line where
  com : Fr
  operations : List (Option Sent)

/-- One operation leads from a line to the next, a payment's send where there is one for its commitment. -/
def Next (sends : List Sent) (ℓ ℓ' : Line) : Prop := ℓ'.operations = ℓ.operations ++ [sendOf sends ℓ'.com]

/-- The pending operation leads on from a copy of the wallet at `ℓ`. -/
structure Leads (c : Crypto) (sends : List Sent) (ℓ ℓ' : Line) (w : Wallet) (p : PendingOp) : Prop where
  old : p.comOld = ℓ.com
  new : p.comNew = ℓ'.com
  next : Next sends ℓ ℓ'
  opening : ∀ position now, (w.committed p position now).commitment c = p.comNew
  kind : ∀ x ∈ sendOf sends p.comNew, ∃ amount recipient reference, p.kind = .send amount recipient x.opening reference
  proved : ∀ env ∈ p.envelope, env.account = w.account ∧ env.com = p.comOld ∧ env.comNew = p.comNew

/-- A copy of the wallet stands at `ℓ`: its commitment, its history and the openings it has sent are those of the
line. -/
structure StandsAt (c : Crypto) (first : Wallet) (sends : List Sent) (lines : List Line) (ℓ : Line) (w : Wallet) :
    Prop where
  account : w.account = first.account
  com : w.commitment c = ℓ.com
  length : w.history.length = first.history.length + ℓ.operations.length
  recorded : ∀ x, some x ∈ ℓ.operations → x.opening ∈ w.sentOpenings.map Prod.snd
  pending : ∀ p, w.pending = some p → ∃ ℓ' ∈ lines, Leads c sends ℓ ℓ' w p

/-- A copy of the wallet stands somewhere on the lines. -/
def Stands (c : Crypto) (first : Wallet) (sends : List Sent) (lines : List Line) (w : Wallet) : Prop :=
  ∃ ℓ ∈ lines, StandsAt c first sends lines ℓ w

/-- Every copy of the wallet, every operation under way and the ledger's commitment stand on one set of lines. -/
structure Lineage (c : Crypto) (first : Wallet) (P : Line → Prop) (s : Payer) (lines : List Line) : Prop where
  named : lines.map Line.com = s.seen
  distinct : s.seen.Nodup
  keeps : ∀ ℓ ∈ lines, P ℓ
  own : Stands c first s.sends lines s.journal.wallet
  saved : Stands c first s.sends lines s.journal.saved
  backups : ∀ w ∈ s.backups, Stands c first s.sends lines w
  pool : ∀ env ∈ s.journal.pool, env.account = first.account ∧
    ∃ ℓ ∈ lines, ∃ ℓ' ∈ lines, ℓ.com = env.com ∧ ℓ'.com = env.comNew ∧ Next s.sends ℓ ℓ'
  answered : ∀ r ∈ s.journal.answers, r.1.comNew ∈ s.seen
  made : ∀ x ∈ s.sends, x.comNew ∈ s.seen
  members : ∀ ℓ ∈ lines, ∀ x, some x ∈ ℓ.operations → x ∈ s.sends
  ledger : ∃ view, s.journal.ledger.account first.account = some view ∧
    ∃ ℓ ∈ lines, ℓ.com = view.com ∧ ℓ.operations = s.operations

variable {c : Crypto} {prover : Prover} {v : Viem} {serves : Namespace → Bool} {first : Wallet} {P : Line → Prop}
  {s s' : Payer} {lines : List Line} {sends : List Sent} {ℓ ℓ' : Line} {w w' : Wallet} {p : PendingOp}

/-! ### Copies of the wallet -/

lemma sendOf_other {x : Option Sent} {com com' : Fr} (hx : ∀ y ∈ x, y.comNew = com') (hne : com ≠ com') :
    sendOf (sends ++ x.toList) com = sendOf sends com := by
  cases x with
  | none => simp
  | some y =>
    have hy : ¬y.comNew = com := fun heq => hne (heq.symm.trans (hx y rfl))
    simp [sendOf, List.find?_append, hy]

lemma sendOf_drawn {x : Option Sent} {com : Fr} (hx : ∀ y ∈ x, y.comNew = com) (hnew : ∀ y ∈ sends, y.comNew ≠ com) :
    sendOf (sends ++ x.toList) com = x := by
  have hnone : sends.find? (fun y => y.comNew = com) = none := by
    rw [List.find?_eq_none]
    intro y hy
    simpa using hnew y hy
  cases x with
  | none => simp [sendOf, hnone]
  | some y => simp [sendOf, List.find?_append, hnone, hx y rfl]

lemma Next.grow (h : Next sends ℓ ℓ') {x : Option Sent} {com : Fr} (hx : ∀ y ∈ x, y.comNew = com)
    (hne : ℓ'.com ≠ com) : Next (sends ++ x.toList) ℓ ℓ' := by
  rw [Next, sendOf_other hx hne]
  exact h

namespace StandsAt

lemma of_same (h : StandsAt c first sends lines ℓ w) (haccount : w'.account = w.account)
    (hcom : w'.commitment c = w.commitment c) (hhistory : w'.history = w.history)
    (hopenings : w'.sentOpenings = w.sentOpenings) (hpending : w'.pending = w.pending)
    (hbalance : w'.balance = w.balance) (hclaimed : w'.claimed = w.claimed) : StandsAt c first sends lines ℓ w' where
  account := haccount.trans h.account
  com := hcom.trans h.com
  length := by rw [hhistory, h.length]
  recorded := hopenings ▸ h.recorded
  pending q hq := by
    obtain ⟨ℓ', hℓ', hleads⟩ := h.pending q (hpending ▸ hq)
    refine ⟨ℓ', hℓ', hleads.old, hleads.new, hleads.next, ?_, hleads.kind, ?_⟩
    · intro position now
      rw [← hleads.opening position now, commitment_committed, commitment_committed, hbalance, hclaimed]
    · rw [haccount]
      exact hleads.proved

lemma idle (h : StandsAt c first sends lines ℓ w) (haccount : w'.account = w.account)
    (hcom : w'.commitment c = w.commitment c) (hhistory : w'.history = w.history)
    (hopenings : w'.sentOpenings = w.sentOpenings) (hpending : w'.pending = none) : StandsAt c first sends lines ℓ w' where
  account := haccount.trans h.account
  com := hcom.trans h.com
  length := by rw [hhistory, h.length]
  recorded := hopenings ▸ h.recorded
  pending q hq := by rw [hpending] at hq; cases hq

lemma aborted (h : StandsAt c first sends lines ℓ w) : StandsAt c first sends lines ℓ w.abortPending := by
  unfold Wallet.abortPending Wallet.setStatusAt
  split
  · split <;> exact h.idle rfl rfl rfl rfl rfl
  · exact h.idle rfl rfl rfl rfl rfl

lemma committed (h : StandsAt c first sends lines ℓ w) (hp : w.pending = some p) (position now : Nat) :
    Stands c first sends lines (w.committed p position now) := by
  obtain ⟨ℓ', hℓ', hleads⟩ := h.pending p hp
  refine ⟨ℓ', hℓ', ?_, (hleads.opening position now).trans hleads.new, ?_, ?_, ?_⟩
  · rw [← h.account]
    unfold Wallet.committed Wallet.setStatusAt
    split
    · rfl
    · split <;> rfl
  · have hlength := h.length
    rw [hleads.next, List.length_append, List.length_singleton]
    have hmore : (w.committed p position now).history.length = w.history.length + 1 := by
      unfold Wallet.committed
      split <;> simp
    omega
  · intro x hx
    rw [hleads.next, List.mem_append, ← hleads.new, List.mem_singleton] at hx
    unfold Wallet.committed
    rcases hx with hx | hx
    · have hold := h.recorded x hx
      split
      · simp only [List.map_append, List.mem_append]
        exact .inl hold
      · unfold Wallet.setStatusAt
        split <;> exact hold
    · obtain ⟨amount, recipient, reference, hkind⟩ := hleads.kind x hx.symm
      rw [hkind]
      simp
  · intro q hq
    unfold Wallet.committed at hq
    split at hq <;> cases hq

lemma grow (h : StandsAt c first sends lines ℓ w) {x : Option Sent} {ℓ₁ : Line} (hx : ∀ y ∈ x, y.comNew = ℓ₁.com)
    (hne : ∀ ℓ ∈ lines, ℓ.com ≠ ℓ₁.com) : StandsAt c first (sends ++ x.toList) (lines ++ [ℓ₁]) ℓ w := by
  refine ⟨h.account, h.com, h.length, h.recorded, ?_⟩
  intro q hq
  obtain ⟨ℓ', hℓ', hleads⟩ := h.pending q hq
  refine ⟨ℓ', List.mem_append_left _ hℓ', hleads.old, hleads.new, hleads.next.grow hx (hne ℓ' hℓ'), hleads.opening, ?_,
    hleads.proved⟩
  rw [sendOf_other hx (hleads.new ▸ hne ℓ' hℓ')]
  exact hleads.kind

lemma proves {keysCircuitId : Nat} {x : OpCircuit} {env : OpEnvelope} (h : StandsAt c first sends lines ℓ w)
    (hprove : w.provePending prover keysCircuitId x = .ok (w', env)) : StandsAt c first sends lines ℓ w' := by
  unfold Wallet.provePending at hprove
  simp only [bind_eq_ok, require_eq_ok, expect_eq_ok, pure_eq_ok, Prod.mk.injEq] at hprove
  obtain ⟨p, hp, -, -, -, -, rfl, -⟩ := hprove
  refine ⟨h.account, h.com, h.length, h.recorded, ?_⟩
  rintro q ⟨⟩
  obtain ⟨ℓ', hℓ', hleads⟩ := h.pending p hp
  refine ⟨ℓ', hℓ', hleads.old, hleads.new, hleads.next, ?_, hleads.kind, ?_⟩
  · intro position now
    have hopening := hleads.opening position now
    rw [commitment_committed] at hopening ⊢
    exact hopening
  · rintro e ⟨⟩
    exact ⟨rfl, rfl, rfl⟩

end StandsAt

lemma Stands.grow (h : Stands c first sends lines w) {x : Option Sent} {ℓ₁ : Line} (hx : ∀ y ∈ x, y.comNew = ℓ₁.com)
    (hne : ∀ ℓ ∈ lines, ℓ.com ≠ ℓ₁.com) : Stands c first (sends ++ x.toList) (lines ++ [ℓ₁]) w := by
  obtain ⟨ℓ, hℓ, hat⟩ := h
  exact ⟨ℓ, List.mem_append_left _ hℓ, hat.grow hx hne⟩

lemma Stands.reconciled (h : Stands c first sends lines w) {com : Fr} {position : Option Nat} {now : Nat} {r : Reconciled}
    (hreconcile : w.reconcile c com position now = .ok (w', r)) : Stands c first sends lines w' := by
  obtain ⟨ℓ, hℓ, hat⟩ := h
  unfold Wallet.reconcile at hreconcile
  cases hp : w.pending with
  | none =>
    rw [hp] at hreconcile
    cases hreconcile
    exact ⟨ℓ, hℓ, hat⟩
  | some p =>
    rw [hp] at hreconcile
    simp only at hreconcile
    split_ifs at hreconcile
    · unfold Wallet.commitPending at hreconcile
      simp only [bind_eq_ok, expect_eq_ok, pure_eq_ok, Prod.mk.injEq] at hreconcile
      obtain ⟨pos, -, _, ⟨q, hq, rfl⟩, rfl, -⟩ := hreconcile
      exact hat.committed hq pos now
    · cases hreconcile
      exact ⟨ℓ, hℓ, hat.aborted⟩
    · cases hreconcile
      exact ⟨ℓ, hℓ, hat⟩

/-! ### Operations drawn -/

/-- An operation has just been prepared, which leaves history and openings alone. -/
structure Draws (c : Crypto) (w w' : Wallet) (p : PendingOp) : Prop extends Prepared c w w' p where
  history : w'.history = w.history
  openings : w'.sentOpenings = w.sentOpenings

lemma prepareSend_draws (hs : prover.Sound c) {inst : Instance} {amount : Nat} {recipient root : Fr}
    {reference : Option Text} {now : Nat} {rNew rReceipt : Fr} {x : OpCircuit}
    (h : w.prepareSend c prover inst amount recipient root reference now rNew rReceipt = .ok (w', x)) :
    ∃ p, Draws c w w' p ∧ p.comNew = prover.comNew x ∧
      p.kind = .send amount recipient ⟨amount, w.account, recipient, rReceipt⟩ reference := by
  obtain ⟨p, hp⟩ := prepareSend_ok hs h
  unfold Wallet.prepareSend Wallet.requireIdle at h
  simp only [bind_eq_ok, require_eq_ok, pure_eq_ok, Prod.mk.injEq] at h
  obtain ⟨-, -, -, -, -, -, rfl, rfl⟩ := h
  obtain rfl := Option.some.inj hp.pending
  exact ⟨_, ⟨hp, rfl, rfl⟩, rfl, rfl⟩

lemma prepareReceive_draws (hs : prover.Sound c) {inst : Instance} {idx : Nat} {witness : ReceiptWitness}
    {now : Nat} {rNew rDummy : Fr} {x : OpCircuit}
    (h : w.prepareReceive c prover inst idx witness now rNew rDummy = .ok (w', x)) : ∃ p, Draws c w w' p := by
  obtain ⟨p, hp⟩ := prepareReceive_ok hs h
  unfold Wallet.prepareReceive Wallet.requireIdle at h
  simp only [bind_eq_ok, require_eq_ok, expect_eq_ok, pure_eq_ok, Prod.mk.injEq] at h
  obtain ⟨-, -, -, -, held, -, -, -, -, -, -, -, -, -, ⟨after, insertion⟩, -, rfl, -⟩ := h
  exact ⟨p, hp, rfl, rfl⟩

lemma send_draws (hs : prover.Sound c) {inst : Instance} {d : Details} {m : Moment} {opening : ReceiptOpening}
    {com : Fr} (h : send c prover w inst d m = .ok (w', opening, com)) :
    ∃ p, Draws c w w' p ∧ p.comNew = com ∧ ∃ amount recipient, p.kind = .send amount recipient opening d.reference := by
  simp only [send, bind_eq_ok, mapError_eq_ok, pure_eq_ok, Prod.mk.injEq] at h
  obtain ⟨amount, -, recipient, -, ⟨w₁, x⟩, hprepare, rfl, rfl, rfl⟩ := h
  obtain ⟨p, hp, hcom, hkind⟩ := prepareSend_draws hs hprepare
  exact ⟨p, hp, hcom, amount, recipient, hkind⟩

namespace Lineage

lemma drawn_new (h : Lineage c first P s lines) {com : Fr} (hfresh : com ∉ s.seen) :
    (∀ ℓ ∈ lines, ℓ.com ≠ com) ∧ (∀ y ∈ s.sends, y.comNew ≠ com) ∧ ∀ r ∈ s.journal.answers, r.1.comNew ≠ com := by
  refine ⟨fun ℓ hℓ heq => hfresh ?_, fun y hy heq => hfresh (heq ▸ h.made y hy),
    fun r hr heq => hfresh (heq ▸ h.answered r hr)⟩
  rw [← h.named, ← heq]
  exact List.mem_map_of_mem hℓ

lemma draws (h : Lineage c first P s lines) (hp : Draws c s.journal.wallet w p) (requests : PaymentRequests.Table)
    (x : Option Sent) (hx : ∀ y ∈ x, y.comNew = p.comNew)
    (hkind : ∀ y ∈ x, ∃ amount recipient reference, p.kind = .send amount recipient y.opening reference)
    (hfresh : (s.seen ++ [p.comNew]).Nodup)
    (hP : ∀ ℓ, StandsAt c first s.sends lines ℓ s.journal.wallet → P ℓ → (∀ y, some y ∈ ℓ.operations → y ∈ s.sends) →
      P ⟨p.comNew, ℓ.operations ++ [x]⟩) :
    ∃ lines', Lineage c first P { s with
      journal := { s.journal with wallet := w, view := none }
      requests := requests
      sends := s.sends ++ x.toList
      seen := s.seen ++ [p.comNew] } lines' := by
  obtain ⟨ℓ, hℓ, hat⟩ := h.own
  have hout : p.comNew ∉ s.seen := fun hin => by
    rw [List.nodup_append] at hfresh
    exact hfresh.2.2 _ hin _ List.mem_cons_self rfl
  obtain ⟨hlines, hsends, hanswers⟩ := h.drawn_new hout
  let ℓ₁ : Line := ⟨p.comNew, ℓ.operations ++ [x]⟩
  have hmine : ∀ y ∈ x, y.comNew = ℓ₁.com := hx
  have hfind : sendOf (s.sends ++ x.toList) p.comNew = x := sendOf_drawn hx hsends
  refine ⟨lines ++ [ℓ₁], ?_, hfresh, ?_, ?_, h.saved.grow hmine hlines, fun w hw => (h.backups w hw).grow hmine hlines,
    ?_, ?_, ?_, ?_, ?_⟩
  · rw [List.map_append, h.named]
    rfl
  · intro ℓ' hℓ'
    rcases List.mem_append.mp hℓ' with hin | hlast
    · exact h.keeps ℓ' hin
    · rw [List.mem_singleton.mp hlast]
      exact hP ℓ hat (h.keeps ℓ hℓ) (h.members ℓ hℓ)
  · refine ⟨ℓ, List.mem_append_left _ hℓ, hp.account.trans hat.account, hp.same.trans hat.com,
      by rw [hp.history, hat.length], by rw [hp.openings]; exact hat.recorded, ?_⟩
    intro q hq
    obtain rfl := Option.some.inj (hp.pending.symm.trans hq)
    refine ⟨ℓ₁, by simp, hp.old.trans hat.com, rfl, by rw [Next, hfind], hp.opening, ?_, ?_⟩
    · rw [hfind]
      exact hkind
    · rw [hp.unproved]
      rintro env ⟨⟩
  · intro env henv
    obtain ⟨hsigned, ℓ₂, h₂, ℓ₃, h₃, hold, hnew, hnext⟩ := h.pool env henv
    exact ⟨hsigned, ℓ₂, List.mem_append_left _ h₂, ℓ₃, List.mem_append_left _ h₃, hold, hnew,
      hnext.grow hmine (hlines ℓ₃ h₃)⟩
  · exact fun r hr => List.mem_append_left _ (h.answered r hr)
  · intro y hy
    rcases List.mem_append.mp hy with hin | hlast
    · exact List.mem_append_left _ (h.made y hin)
    · rw [hx y (Option.mem_toList.mp hlast)]
      simp
  · intro ℓ' hℓ' y hy
    rcases List.mem_append.mp hℓ' with hin | hlast
    · exact List.mem_append_left _ (h.members ℓ' hin y hy)
    · rw [List.mem_singleton.mp hlast] at hy
      rcases List.mem_append.mp hy with hbefore | hmade
      · exact List.mem_append_left _ (h.members ℓ hℓ y hbefore)
      · exact List.mem_append_right _ (Option.mem_toList.mpr (List.mem_singleton.mp hmade).symm)
  · obtain ⟨view, hview, ℓ₂, h₂, hcom, hsame⟩ := h.ledger
    refine ⟨view, hview, ℓ₂, List.mem_append_left _ h₂, hcom, hsame.trans ?_⟩
    refine List.map_congr_left fun r hr => ?_
    exact (sendOf_other hx (hanswers r hr)).symm

lemma moves (h : Lineage c first P s lines) (hw : Stands c first s.sends lines w) (view : Option (Fr × Option Nat)) :
    Lineage c first P { s with journal := { s.journal with wallet := w, view := view } } lines :=
  ⟨h.named, h.distinct, h.keeps, hw, h.saved, h.backups, h.pool, h.answered, h.made, h.members, h.ledger⟩

lemma distinct_com (h : Lineage c first P s lines) (hℓ : ℓ ∈ lines) (hℓ' : ℓ' ∈ lines) (heq : ℓ.com = ℓ'.com) : ℓ = ℓ' := by
  have hnodup : (lines.map Line.com).Nodup := h.named ▸ h.distinct
  exact List.inj_on_of_nodup_map hnodup hℓ hℓ' heq

lemma submits (h : Lineage c first P s lines) (hp : s.journal.wallet.pending = some p) {env : OpEnvelope}
    (henv : p.envelope = some env) :
    Lineage c first P { s with journal := { s.journal with pool := s.journal.pool ++ [env] } } lines := by
  refine ⟨h.named, h.distinct, h.keeps, h.own, h.saved, h.backups, ?_, h.answered, h.made, h.members, h.ledger⟩
  intro e he
  rcases List.mem_append.mp he with hin | hlast
  · exact h.pool e hin
  · rw [List.mem_singleton.mp hlast]
    obtain ⟨ℓ, hℓ, hat⟩ := h.own
    obtain ⟨ℓ', hℓ', hleads⟩ := hat.pending p hp
    obtain ⟨hsigned, hold, hnew⟩ := hleads.proved env henv
    exact ⟨hsigned.trans hat.account, ℓ, hℓ, ℓ', hℓ', (hold.trans hleads.old).symm, (hnew.trans hleads.new).symm,
      hleads.next⟩

lemma drops (h : Lineage c first P s lines) (env : OpEnvelope) :
    Lineage c first P { s with journal := { s.journal with pool := s.journal.pool.erase env } } lines :=
  ⟨h.named, h.distinct, h.keeps, h.own, h.saved, h.backups, fun e he => h.pool e (List.mem_of_mem_erase he), h.answered,
    h.made, h.members, h.ledger⟩

lemma finalizes (h : Lineage c first P s lines) {env : OpEnvelope} (henv : env ∈ s.journal.pool) {l : Ledger} {r : Applied}
    (happly : s.journal.ledger.apply c env = .ok (l, r)) :
    Lineage c first P { s with journal := { s.journal with
      ledger := l, pool := s.journal.pool.erase env, answers := s.journal.answers ++ [(env, r.position)] } } lines := by
  obtain ⟨hsigned, ℓ, hℓ, ℓ', hℓ', hold, hnew, hnext⟩ := h.pool env henv
  obtain ⟨⟨view, hview, hcom⟩, ⟨view', hview', hcom'⟩, -⟩ := account_apply happly
  rw [hsigned] at hview hview'
  obtain ⟨_, hview₀, ℓ₀, hℓ₀, hcom₀, hsame⟩ := h.ledger
  obtain rfl := Option.some.inj (hview.symm.trans hview₀)
  obtain rfl : ℓ₀ = ℓ := h.distinct_com hℓ₀ hℓ (by rw [hcom₀, hcom, hold])
  refine ⟨h.named, h.distinct, h.keeps, h.own, h.saved, h.backups, fun e he => h.pool e (List.mem_of_mem_erase he), ?_,
    h.made, h.members, view', hview', ℓ', hℓ', hnew.trans hcom'.symm, ?_⟩
  · intro e he
    rcases List.mem_append.mp he with hin | hlast
    · exact h.answered e hin
    · rw [List.mem_singleton.mp hlast, ← hnew, ← h.named]
      exact List.mem_map_of_mem hℓ'
  · rw [hnext, hsame, hnew, Payer.operations, Payer.operations, List.map_append]
    rfl

lemma elsewhere (h : Lineage c first P s lines) {envelope : Envelope} {l : Ledger} {r : Applied}
    (hother : isOpOf s.journal.wallet.account envelope = false)
    (htransition : s.journal.ledger.transition c envelope = .ok (l, r)) :
    Lineage c first P { s with journal := { s.journal with ledger := l } } lines := by
  obtain ⟨_, _, hat⟩ := h.own
  obtain ⟨view, hview, hline⟩ := h.ledger
  rw [hat.account] at hother
  exact ⟨h.named, h.distinct, h.keeps, h.own, h.saved, h.backups, h.pool, h.answered, h.made, h.members, view,
    account_elsewhere hview hother htransition, hline⟩

end Lineage

lemma keepsBooks_same {inst : Instance} {call : WalletCall} (hcall : keepsBooks call = true)
    (h : walletStep c prover inst w call = .ok w') : w'.account = w.account ∧ w'.commitment c = w.commitment c ∧
      w'.history = w.history ∧ w'.sentOpenings = w.sentOpenings ∧ w'.pending = w.pending ∧ w'.balance = w.balance ∧
      w'.claimed = w.claimed := by
  cases call with
  | markRegistered =>
    cases h
    exact ⟨rfl, rfl, rfl, rfl, rfl, rfl, rfl⟩
  | addReceipt position opening reference now =>
    cases h
    unfold Wallet.addReceipt
    split <;> exact ⟨rfl, rfl, rfl, rfl, rfl, rfl, rfl⟩
  | verifyReceipt idx witness =>
    obtain ⟨⟨w₁, ok⟩, hverify, rfl⟩ := exceptMap_eq_ok.mp h
    obtain ⟨r, -, -, hw₁⟩ := verifyReceipt_ok hverify
    rw [hw₁]
    exact ⟨rfl, rfl, rfl, rfl, rfl, rfl, rfl⟩
  | prepareDeposit keysCircuitId amount reference now randomness =>
    unfold walletStep at h
    simp only [bind_eq_ok, pure_eq_ok] at h
    obtain ⟨-, -, rfl⟩ := h
    exact ⟨rfl, rfl, rfl, rfl, rfl, rfl, rfl⟩
  | depositMinted receipt position now =>
    obtain ⟨⟨w₁, idx⟩, hminted, rfl⟩ := exceptMap_eq_ok.mp h
    have hminted := expect_eq_ok.mp hminted
    unfold Wallet.depositMinted at hminted
    split at hminted
    · cases hminted
    · obtain ⟨d, -, hd⟩ := Option.map_eq_some_iff.mp hminted
      rw [← congrArg Prod.fst hd]
      unfold Wallet.addReceipt
      split <;> exact ⟨rfl, rfl, rfl, rfl, rfl, rfl, rfl⟩
  | _ => cases hcall

/-! ### One step -/

variable {namespaceHex : Text} {profile : Option BoundProfile} {requests requests' : PaymentRequests.Table}
  {target : PaymentTarget} {intentId : Text} {approval : Option PaymentApproval} {m : Moment} {x : Sent}

lemma payUnlocked_ok {inst : Instance}
    (h : payUnlocked c prover v namespaceHex profile requests w inst target intentId approval m = .ok (requests', w', x)) :
    targetDetails c namespaceHex m.read target = .ok x.details ∧ x.intentId = intentId ∧ x.approval = approval ∧
      (∀ ap ∈ approval, checkApproval v namespaceHex profile x.details m.verified ap = .ok ()) ∧
      reserve requests x.details.requestId intentId m.node = .ok requests' ∧
      send c prover w inst x.details m = .ok (w', x.opening, x.comNew) := by
  simp only [payUnlocked, bind_eq_ok, require_eq_ok, pure_eq_ok, Prod.mk.injEq] at h
  obtain ⟨d, hd, -, -, amount, -, -, -, ⟨⟩, happroval, _, hreserve, ⟨_, opening, com⟩, hsend, rfl, rfl, rfl⟩ := h
  refine ⟨hd, rfl, rfl, ?_, hreserve, hsend⟩
  rintro ap rfl
  exact happroval

/-- Where the event is a payment, the line its send draws has the property again. -/
def Keeps (c : Crypto) (prover : Prover) (v : Viem) (first : Wallet) (P : Line → Prop) (s : Payer) (lines : List Line) :
    Event → Prop
  | .pay target intentId approval m => ∀ requests w x,
    payUnlocked c prover v s.namespaceHex s.profile s.requests s.journal.wallet s.journal.ledger.inst target intentId
      approval m = .ok (requests, w, x) → ∀ ℓ, StandsAt c first s.sends lines ℓ s.journal.wallet → P ℓ →
        (∀ y, some y ∈ ℓ.operations → y ∈ s.sends) → P ⟨x.comNew, ℓ.operations ++ [some x]⟩
  | _ => True

namespace Lineage

lemma draws_plain (h : Lineage c first P s lines) (hplain : ∀ ℓ com, P ℓ → P ⟨com, ℓ.operations ++ [none]⟩)
    (hp : Draws c s.journal.wallet w p) (hfresh : (s.seen ++ [p.comNew]).Nodup) : ∃ lines', Lineage c first P { s with
      journal := { s.journal with wallet := w, view := none }, seen := s.seen ++ [p.comNew] } lines' := by
  have hnone : ∀ y ∈ (none : Option Sent), y.comNew = p.comNew := by
    rintro y ⟨⟩
  have hdraws := h.draws hp s.requests none hnone (by rintro y ⟨⟩) hfresh fun ℓ _ hℓ _ =>
    hplain ℓ p.comNew hℓ
  simpa using hdraws

lemma journal_step (hs : prover.Sound c) (h : Lineage c first P s lines)
    (hplain : ∀ ℓ com, P ℓ → P ⟨com, ℓ.operations ++ [none]⟩) {action : Action} {j : Journal}
    (hfresh : (s.seen ++ drawn j action).Nodup) (hstep : journalStep c prover s.journal action = .ok j) :
    ∃ lines', Lineage c first P { s with journal := j, seen := s.seen ++ drawn j action } lines' := by
  have hsame : ∀ {j'} (_ : drawn j' action = []) (_ : Lineage c first P { s with journal := j' } lines),
      ∃ lines', Lineage c first P { s with journal := j', seen := s.seen ++ drawn j' action } lines' := by
    intro j' hnone hlineage
    rw [hnone, List.append_nil]
    exact ⟨lines, hlineage⟩
  cases action with
  | prepareSend amount recipient root reference now rNew rReceipt =>
    unfold journalStep at hstep
    simp only [bind_eq_ok, pure_eq_ok] at hstep
    obtain ⟨⟨w, x⟩, hw, rfl⟩ := hstep
    obtain ⟨p, hp, -, -⟩ := prepareSend_draws hs hw
    have hdrawn : drawn { s.journal with wallet := w, view := none }
        (.prepareSend amount recipient root reference now rNew rReceipt) = [p.comNew] := by
      simp [drawn, hp.pending]
    rw [hdrawn] at hfresh ⊢
    exact h.draws_plain hplain hp hfresh
  | prepareReceive idx witness now rNew rDummy =>
    unfold journalStep at hstep
    simp only [bind_eq_ok, pure_eq_ok] at hstep
    obtain ⟨⟨w, x⟩, hw, rfl⟩ := hstep
    obtain ⟨p, hp⟩ := prepareReceive_draws hs hw
    have hdrawn : drawn { s.journal with wallet := w, view := none }
        (.prepareReceive idx witness now rNew rDummy) = [p.comNew] := by
      simp [drawn, hp.pending]
    rw [hdrawn] at hfresh ⊢
    exact h.draws_plain hplain hp hfresh
  | prove keysCircuitId circuit =>
    unfold journalStep at hstep
    simp only [bind_eq_ok, pure_eq_ok] at hstep
    obtain ⟨⟨w, env⟩, hw, rfl⟩ := hstep
    obtain ⟨ℓ, hℓ, hat⟩ := h.own
    exact hsame rfl (h.moves ⟨ℓ, hℓ, hat.proves hw⟩ s.journal.view)
  | save =>
    cases hstep
    exact hsame rfl ⟨h.named, h.distinct, h.keeps, h.own, h.own, h.backups, h.pool, h.answered, h.made, h.members,
      h.ledger⟩
  | submit =>
    unfold journalStep at hstep
    simp only [bind_eq_ok, require_eq_ok, expect_eq_ok, pure_eq_ok] at hstep
    obtain ⟨-, -, p, hp, env, henv, rfl⟩ := hstep
    exact hsame rfl (h.submits hp henv)
  | accepted env position now =>
    unfold journalStep Wallet.commitPending at hstep
    simp only [bind_eq_ok, require_eq_ok, expect_eq_ok, pure_eq_ok] at hstep
    obtain ⟨p, -, -, -, _, ⟨q, hq, rfl⟩, rfl⟩ := hstep
    obtain ⟨ℓ, -, hat⟩ := h.own
    exact hsame rfl (h.moves (hat.committed hq position now) none)
  | refused =>
    cases hstep
    obtain ⟨ℓ, hℓ, hat⟩ := h.own
    exact hsame rfl (h.moves ⟨ℓ, hℓ, hat.aborted⟩ none)
  | read =>
    cases hstep
    exact hsame rfl (h.moves h.own _)
  | settle now =>
    unfold journalStep at hstep
    simp only [bind_eq_ok, expect_eq_ok, pure_eq_ok] at hstep
    obtain ⟨⟨com, position⟩, -, ⟨w, r⟩, hreconcile, rfl⟩ := hstep
    exact hsame rfl (h.moves (h.own.reconciled hreconcile) none)
  | crash =>
    cases hstep
    exact hsame rfl (h.moves h.saved none)
  | finalized env =>
    unfold journalStep at hstep
    simp only [bind_eq_ok, require_eq_ok] at hstep
    obtain ⟨-, henv, hstep⟩ := hstep
    cases happly : s.journal.ledger.apply c env with
    | error e =>
      rw [happly] at hstep
      cases hstep
      exact hsame rfl (h.drops env)
    | ok out =>
      rw [happly] at hstep
      cases hstep
      exact hsame rfl (h.finalizes henv happly)
  | expired env =>
    cases hstep
    exact hsame rfl (h.drops env)
  | elsewhere envelope =>
    unfold journalStep at hstep
    simp only [bind_eq_ok, require_eq_ok, pure_eq_ok] at hstep
    obtain ⟨-, hother, ⟨l, r⟩, hl, rfl⟩ := hstep
    exact hsame rfl (h.elsewhere hother hl)

lemma step (hs : prover.Sound c) (h : Lineage c first P s lines) (hplain : ∀ ℓ com, P ℓ → P ⟨com, ℓ.operations ++ [none]⟩)
    {event : Event} (hkeeps : Keeps c prover v first P s lines event)
    (hstep : Account.step c prover v serves s event = .ok s') (hfresh : s'.seen.Nodup) :
    ∃ lines', Lineage c first P s' lines' := by
  cases event with
  | pay target intentId approval m =>
    unfold Account.step at hstep
    simp only [bind_eq_ok, pure_eq_ok] at hstep
    obtain ⟨⟨requests, w, x⟩, hpay, rfl⟩ := hstep
    obtain ⟨-, -, -, -, -, hsend⟩ := payUnlocked_ok hpay
    obtain ⟨p, hp, hcom, amount, recipient, hkind⟩ := send_draws hs hsend
    rw [← hcom] at hfresh ⊢
    have hx : ∀ y ∈ some x, y.comNew = p.comNew := by
      rintro y ⟨⟩
      exact hcom.symm
    refine h.draws hp requests (some x) hx ?_ hfresh ?_
    · rintro y ⟨⟩
      exact ⟨amount, recipient, _, hkind⟩
    · intro ℓ hat hℓ hmembers
      rw [hcom]
      exact hkeeps requests w x hpay ℓ hat hℓ hmembers
  | journal action =>
    unfold Account.step at hstep
    simp only [bind_eq_ok, mapError_eq_ok, pure_eq_ok] at hstep
    obtain ⟨j, hj, rfl⟩ := hstep
    exact h.journal_step hs hplain hfresh hj
  | note call =>
    unfold Account.step at hstep
    simp only [bind_eq_ok, require_eq_ok, mapError_eq_ok, pure_eq_ok] at hstep
    obtain ⟨-, hcall, w, hw, rfl⟩ := hstep
    obtain ⟨haccount, hcom, hhistory, hopenings, hpending, hbalance, hclaimed⟩ := keepsBooks_same hcall hw
    obtain ⟨ℓ, hℓ, hat⟩ := h.own
    exact ⟨lines, h.moves ⟨ℓ, hℓ, hat.of_same haccount hcom hhistory hopenings hpending hbalance hclaimed⟩ _⟩
  | requests call =>
    unfold Account.step at hstep
    simp only [bind_eq_ok, mapError_eq_ok, pure_eq_ok] at hstep
    obtain ⟨requests, -, rfl⟩ := hstep
    exact ⟨lines, h.named, h.distinct, h.keeps, h.own, h.saved, h.backups, h.pool, h.answered, h.made, h.members,
      h.ledger⟩
  | bind profile =>
    cases hstep
    exact ⟨lines, h.named, h.distinct, h.keeps, h.own, h.saved, h.backups, h.pool, h.answered, h.made, h.members,
      h.ledger⟩
  | backup =>
    cases hstep
    refine ⟨lines, h.named, h.distinct, h.keeps, h.own, h.saved, ?_, h.pool, h.answered, h.made, h.members, h.ledger⟩
    intro w hw
    rcases List.mem_append.mp hw with hin | hlast
    · exact h.backups w hin
    · rw [List.mem_singleton.mp hlast]
      exact h.own
  | restore w =>
    unfold Account.step at hstep
    simp only [bind_eq_ok, require_eq_ok, pure_eq_ok] at hstep
    obtain ⟨-, hw, rfl⟩ := hstep
    exact ⟨lines, h.moves (h.backups w hw) none⟩

lemma start (namespaceHex : Text) (profile : Option BoundProfile) (requests : PaymentRequests.Table) {w : Wallet}
    {l : Ledger} {view : AccountView} (hidle : w.pending = none) (hview : l.account w.account = some view)
    (hcom : view.com = w.commitment c) (hP : P ⟨w.commitment c, []⟩) :
    Lineage c w P (Payer.start c namespaceHex profile requests w l)
      [⟨w.commitment c, []⟩] := by
  have hat : Stands c w [] [⟨w.commitment c, []⟩] w := by
    refine ⟨_, List.mem_singleton_self _, rfl, rfl, rfl, fun x hx => absurd hx List.not_mem_nil, ?_⟩
    rintro p hp
    rw [hidle] at hp
    cases hp
  refine ⟨rfl, List.nodup_singleton _, ?_, hat, hat, ?_, ?_, ?_, ?_, ?_, view, hview, _, List.mem_singleton_self _,
    hcom.symm, rfl⟩
  · intro ℓ hℓ
    rw [List.mem_singleton.mp hℓ]
    exact hP
  · exact fun w hw => absurd hw List.not_mem_nil
  · exact fun env henv => absurd henv List.not_mem_nil
  · exact fun r hr => absurd hr List.not_mem_nil
  · exact fun x hx => absurd hx List.not_mem_nil
  · intro ℓ hℓ x hx
    rw [List.mem_singleton.mp hℓ] at hx
    cases hx

end Lineage

/-! ### Runs -/

lemma seen_step {event : Event} (h : step c prover v serves s event = .ok s') : s.seen <+: s'.seen := by
  cases event with
  | pay target intentId approval m =>
    unfold step at h
    simp only [bind_eq_ok, pure_eq_ok] at h
    obtain ⟨⟨requests, w, x⟩, -, rfl⟩ := h
    exact List.prefix_append _ _
  | journal action =>
    unfold step at h
    simp only [bind_eq_ok, mapError_eq_ok, pure_eq_ok] at h
    obtain ⟨j, -, rfl⟩ := h
    exact List.prefix_append _ _
  | note call =>
    unfold step at h
    simp only [bind_eq_ok, require_eq_ok, mapError_eq_ok, pure_eq_ok] at h
    obtain ⟨-, -, w, -, rfl⟩ := h
    exact List.prefix_rfl
  | requests call =>
    unfold step at h
    simp only [bind_eq_ok, mapError_eq_ok, pure_eq_ok] at h
    obtain ⟨requests, -, rfl⟩ := h
    exact List.prefix_rfl
  | bind profile =>
    cases h
    exact List.prefix_rfl
  | backup =>
    cases h
    exact List.prefix_rfl
  | restore w =>
    unfold step at h
    simp only [bind_eq_ok, require_eq_ok, pure_eq_ok] at h
    obtain ⟨-, -, rfl⟩ := h
    exact List.prefix_rfl

/-- No commitment of the run is drawn twice. -/
def DrawnOnce (c : Crypto) (prover : Prover) (v : Viem) (serves : Namespace → Bool) (s : Payer) (events : List Event) :
    Prop := (exec (step c prover v serves) s events).seen.Nodup

lemma DrawnOnce.along {events : List Event} (h : DrawnOnce c prover v serves s events) :
    Along (step c prover v serves) (fun s event => (advance (step c prover v serves) s event).seen.Nodup) s events :=
  along_of_growing (step c prover v serves) Payer.seen (fun _ _ _ => seen_step) h

end Peal.Links.Account
