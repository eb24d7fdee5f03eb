import Peal.Links.Inbox
import Peal.Links.Journal

namespace Peal.Links
open Peal.Fallible Peal.Runs

/-! # Delivered openings -/

/-! ### A delivered receipt stays usable -/

section Usability

variable (c : Crypto) (prover : Prover) (inst : Instance)

/-- A pass of verification leaves the entry ready to claim. -/
def Verifies (s : Inbox) (i : Nat) : Prop :=
  ∃ r : HeldReceipt, (verifyReceipts c s.wallet s.log).receipts[i]? = some r ∧
    (r.status = .unclaimed ∨ r.status = .claiming)

/-- An idle, registered wallet with room for the amount can claim the entry. -/
def Claims (s : Inbox) (i : Nat) : Prop :=
  s.wallet.pending = none → s.wallet.registered = true →
    (∀ r, s.wallet.receipts[i]? = some r → s.wallet.balance + r.opening.amount < 2 ^ 64) →
      ∀ now rNew rDummy, Succeeds (claimReceipt c prover inst s i now rNew rDummy)

/-- The wallet holds the opening, and has claimed it or can verify and claim it. -/
def Usable (s : Inbox) (position : Nat) (opening : ReceiptOpening) : Prop :=
  ∃ (i : Nat) (r : HeldReceipt), s.wallet.receipts[i]? = some r ∧ r.position = position ∧ r.opening = opening ∧
    (s.wallet.claimed.contains position = true ∨ Verifies c s i ∧ Claims c prover inst s i)

def Delivers (s : Inbox) (position : Nat) (opening : ReceiptOpening) : InboxEvent → Prop
  | .addReceipt p o _ _ => p = position ∧ o = opening
  | .depositMinted receipt p _ => p = position ∧ ∃ (idx : Nat) (d : PendingDeposit),
    s.wallet.pendingDeposits.findIdx? (fun d => d.receipt = receipt) = some idx ∧
      s.wallet.pendingDeposits[idx]? = some d ∧ d.opening = opening
  | _ => False

/-- No other opening holds the position, and no unverified entry outside the log stands before it. -/
structure Unhindered (s : Inbox) (position : Nat) (opening : ReceiptOpening) : Prop where
  first : ∀ r ∈ s.wallet.receipts, r.position = position → r.opening = opening
  served : s.wallet.claimed.contains position = true ∨
    (∃ r ∈ s.wallet.receipts, r.position = position ∧ r.status ≠ .discovered) ∨
    ∀ (i : Nat) (r : HeldReceipt), s.wallet.receipts[i]? = some r → r.status = .discovered →
      s.log.size ≤ r.position →
        ∃ (j : Nat) (r' : HeldReceipt), j < i ∧ s.wallet.receipts[j]? = some r' ∧ r'.position = position

/-- The entry is past its verification, or a pass gets to it. -/
def Ready (s : Inbox) (position : Nat) (opening : ReceiptOpening) : Prop :=
  ∃ (i : Nat) (r : HeldReceipt), s.wallet.receipts[i]? = some r ∧ r.position = position ∧ r.opening = opening ∧
    (s.wallet.claimed.contains position = true ∨ r.status ≠ .discovered ∨
      ∀ j < i, ∀ r', s.wallet.receipts[j]? = some r' → r'.status = .discovered → r'.position < s.log.size)

/-- A new wallet of an empty namespace. -/
structure OpenedInbox (s : Inbox) : Prop where
  receipts : s.wallet.receipts = []
  pending : s.wallet.pending = none
  claimed : s.wallet.claimed = ⟨inst.nullDepth, []⟩
  log : s.log = .new inst.receiptDepth

variable {c prover inst} {s s' : Inbox} {position : Nat} {opening : ReceiptOpening}

lemma OpenedInbox.sound (h : OpenedInbox inst s) : SoundInbox c inst s := by
  refine ⟨by rw [h.log]; rfl, by rw [h.claimed], by rw [h.log]; exact Nat.zero_le _, fun r hr => ?_, fun r hr => ?_,
    fun i j r r' hi _ _ => ?_, PendingOk.none h.pending⟩
  · rw [h.receipts] at hr
    cases hr
  · rw [h.receipts] at hr
    cases hr
  · rw [h.receipts] at hi
    cases hi

lemma Genuine.lt (h : Genuine c s position opening) : position < s.log.size :=
  (List.getElem?_eq_some_iff.mp h.1).1

lemma Genuine.evolves (h : Genuine c s position opening) (he : Evolves c s s') : Genuine c s' position opening := by
  obtain ⟨hlt, hleaf⟩ := List.getElem?_eq_some_iff.mp h.1
  refine ⟨?_, h.2.trans he.account.symm⟩
  rw [List.prefix_iff_getElem?.mp he.log position hlt, hleaf]

lemma Ready.evolves (h : Ready s position opening) (he : Evolves c s s') : Ready s' position opening := by
  obtain ⟨i, r, hr, hpos, hopening, hcase⟩ := h
  obtain ⟨st, hst, hdisc, -⟩ := he.kept i r hr
  refine ⟨i, _, hst, hpos, hopening, ?_⟩
  rcases hcase with hclaimed | hpast | hreach
  · exact .inl (he.claimed _ hclaimed)
  · exact .inr (.inl fun heq => hpast (hdisc heq))
  · refine .inr (.inr fun j hj r' hr' hr'disc => ?_)
    have hlt : j < s.wallet.receipts.length := hj.trans (List.getElem?_eq_some_iff.mp hr).1
    obtain ⟨st', hst', hdisc', -⟩ := he.kept j _ (List.getElem?_eq_getElem hlt)
    rw [hr'] at hst'
    obtain rfl := Option.some.inj hst'
    exact lt_of_lt_of_le (hreach j hj s.wallet.receipts[j] (List.getElem?_eq_getElem hlt) (hdisc' hr'disc))
      he.log.length_le

lemma genuine_claims (h : SoundInbox c inst s) (hdepth : inst.receiptDepth = inst.nullDepth) {i : Nat}
    {r : HeldReceipt} (hr : s.wallet.receipts[i]? = some r) (hgenuine : Genuine c s r.position r.opening)
    (hunclaimed : s.wallet.claimed.contains r.position = false) : Claims c prover inst s i := by
  intro hidle hregistered hroom now rNew rDummy
  have hcommit := h.commits r (List.mem_of_getElem? hr)
  have hserved := (served_eq_ok (c := c) (t := s.log)).mpr ⟨hgenuine.lt, rfl⟩
  have hleaf : s.log.leaves[r.position]? = some r.receipt := by
    rw [hcommit]
    exact hgenuine.1
  have hroot := served_root h.fits hserved hleaf
  have hfits : r.position < inst.maxPositions := by
    unfold Instance.maxPositions
    rw [← h.receiptDepth]
    exact lt_of_lt_of_le hgenuine.lt h.fits
  have hspace : ¬(s.wallet.claimed.depth < 64 ∧ 2 ^ s.wallet.claimed.depth ≤ r.position) := by
    rw [h.nullDepth, ← hdepth]
    exact fun hout => absurd hfits (Nat.not_lt.mpr hout.2)
  unfold claimReceipt Wallet.prepareReceive Wallet.requireIdle ClaimedSet.insert Succeeds
  simp only [hr, expect, hserved, hidle, hregistered, hgenuine.2, ← hcommit, hroot, hfits, hroom r hr, hspace,
    hunclaimed, require, if_pos, bind, Except.bind, pure, Except.pure, and_self, not_false_eq_true]
  exact ⟨_, rfl⟩

theorem usable_iff_ready (h : SoundInbox c inst s) (hdepth : inst.receiptDepth = inst.nullDepth)
    (hgenuine : Genuine c s position opening) :
    Usable c prover inst s position opening ↔ Ready s position opening := by
  have hreceipts := (verifyReceipts_spec (c := c) s.wallet s.log).1
  constructor
  · rintro ⟨i, r, hr, rfl, rfl, hclaimed | ⟨⟨r', hr', hst⟩, -⟩⟩
    · exact ⟨i, r, hr, rfl, rfl, .inl hclaimed⟩
    · refine ⟨i, r, hr, rfl, rfl, .inr ?_⟩
      by_contra hnot
      rw [not_or, not_not] at hnot
      obtain ⟨hdisc, hblocked⟩ := hnot
      push Not at hblocked
      obtain ⟨j, hj, r₀, hr₀, hdisc₀, hout⟩ := hblocked
      rw [hreceipts, passOver_blocked hr₀ hdisc₀ hout hj.le hr] at hr'
      obtain rfl := Option.some.inj hr'
      rw [hdisc] at hst
      rcases hst with hst | hst <;> cases hst
  · rintro ⟨i, r, hr, rfl, rfl, hcase⟩
    refine ⟨i, r, hr, rfl, rfl, ?_⟩
    by_cases hclaimed : s.wallet.claimed.contains r.position = true
    · exact .inl hclaimed
    have hunclaimed : s.wallet.claimed.contains r.position = false := by simpa using hclaimed
    refine .inr ⟨?_, genuine_claims h hdepth hr hgenuine hunclaimed⟩
    have hmem := List.mem_of_getElem? hr
    unfold Verifies
    rw [hreceipts]
    by_cases hdisc : r.status = .discovered
    · have hreach : ∀ j ≤ i, ∀ r', s.wallet.receipts[j]? = some r' → r'.status = .discovered →
          r'.position < s.log.size := by
        intro j hj r' hr' hdisc'
        rcases Nat.lt_or_ge j i with hlt | hge
        · rcases hcase with hclaimed' | hpast | hreach
          · exact absurd hclaimed' hclaimed
          · exact absurd hdisc hpast
          · exact hreach j hlt r' hr' hdisc'
        · obtain rfl : j = i := by omega
          obtain rfl := Option.some.inj (hr'.symm.trans hr)
          exact hgenuine.lt
      obtain ⟨witness, hserved, hst⟩ := passOver_reached (c := c) (w := s.wallet) hr hdisc hreach
      rw [if_pos (verifies_of_genuine h hmem hserved hgenuine hunclaimed)] at hst
      exact ⟨_, hst, .inl rfl⟩
    · have hok := h.status r hmem
      refine ⟨r, (passOver_entry hr).resolve_right fun hboth => hdisc hboth.1, ?_⟩
      cases hst : r.status with
      | discovered => exact absurd hst hdisc
      | unclaimed => exact .inl rfl
      | claiming => exact .inr rfl
      | verified =>
        rw [hst] at hok
        exact hok.elim
      | claimed =>
        rw [hst] at hok
        exact absurd hok hclaimed
      | invalid =>
        rw [hst] at hok
        rcases hok.2 with hclaimed' | hnot
        · exact absurd hclaimed' hclaimed
        · exact absurd hgenuine hnot

lemma delivered {e : InboxEvent} (hdeliver : Delivers s position opening e) :
    ∃ s', inboxStep c prover inst s e = .ok s' ∧ s'.log = s.log ∧ s'.wallet.claimed = s.wallet.claimed ∧
      ((s'.wallet.receipts = s.wallet.receipts ∧ ∃ r ∈ s.wallet.receipts, r.position = position) ∨
        (∀ r ∈ s.wallet.receipts, r.position ≠ position) ∧ ∃ r : HeldReceipt,
          r.position = position ∧ r.opening = opening ∧ r.status = .discovered ∧
            s'.wallet.receipts = s.wallet.receipts ++ [r]) := by
  have hadd (w : Wallet) (reference : Option Text) (now : Nat) (hreceipts : w.receipts = s.wallet.receipts) :
      let w' := (w.addReceipt c position opening reference now).1
      (w'.receipts = s.wallet.receipts ∧ ∃ r ∈ s.wallet.receipts, r.position = position) ∨
        (∀ r ∈ s.wallet.receipts, r.position ≠ position) ∧ ∃ r : HeldReceipt,
          r.position = position ∧ r.opening = opening ∧ r.status = .discovered ∧
            w'.receipts = s.wallet.receipts ++ [r] := by
    rw [← hreceipts]
    rcases addReceipt_receipts (c := c) w position opening reference now with hsame | ⟨hfresh, hadded⟩
    · exact .inl hsame
    · exact .inr ⟨hfresh, _, rfl, rfl, rfl, hadded⟩
  cases e with
  | addReceipt p o reference now =>
    obtain ⟨rfl, rfl⟩ := hdeliver
    exact ⟨_, rfl, rfl, (addReceipt_same _ _ _ _ _).2.1, hadd s.wallet reference now rfl⟩
  | depositMinted receipt p now =>
    obtain ⟨rfl, idx, d, hfind, hd, rfl⟩ := hdeliver
    let w : Wallet := { s.wallet with pendingDeposits := s.wallet.pendingDeposits.eraseIdx idx }
    refine ⟨{ s with wallet := (w.addReceipt c p d.opening d.reference now).1 }, ?_, rfl, ?_,
      hadd w d.reference now rfl⟩
    · simp only [inboxStep, Wallet.depositMinted, hfind, hd, Option.map_some, expect, bind, Except.bind]
      rfl
    · exact (addReceipt_same _ _ _ _ _).2.1
  | logged _ => exact hdeliver.elim
  | prepareDeposit _ _ _ _ => exact hdeliver.elim
  | verifyReceipt _ => exact hdeliver.elim
  | verifyReceipts => exact hdeliver.elim
  | claim _ _ _ _ => exact hdeliver.elim
  | commitPending _ _ => exact hdeliver.elim
  | abortPending => exact hdeliver.elim

lemma delivered_ready_iff (h : SoundInbox c inst s) (hgenuine : Genuine c s position opening)
    (hlog : s'.log = s.log) (hclaimed : s'.wallet.claimed = s.wallet.claimed)
    (hreceipts : (s'.wallet.receipts = s.wallet.receipts ∧ ∃ r ∈ s.wallet.receipts, r.position = position) ∨
        (∀ r ∈ s.wallet.receipts, r.position ≠ position) ∧ ∃ r : HeldReceipt,
          r.position = position ∧ r.opening = opening ∧ r.status = .discovered ∧
            s'.wallet.receipts = s.wallet.receipts ++ [r]) :
    Ready s' position opening ↔ Unhindered s position opening := by
  unfold Ready
  rw [hlog, hclaimed]
  rcases hreceipts with ⟨hsame, r₀, hr₀, hpos₀⟩ | ⟨hfresh, r₀, hpos₀, hopening₀, hdisc₀, hadded⟩
  · rw [hsame]
    obtain ⟨i₀, hi₀⟩ := List.mem_iff_getElem?.mp hr₀
    have honly {i : Nat} {r : HeldReceipt} (hr : s.wallet.receipts[i]? = some r) (hpos : r.position = position) :
        i = i₀ ∧ r = r₀ := by
      obtain rfl := h.distinct i i₀ r r₀ hr hi₀ (hpos.trans hpos₀.symm)
      exact ⟨rfl, Option.some.inj (hr.symm.trans hi₀)⟩
    constructor
    · rintro ⟨i, r, hr, hpos, hopening, hcase⟩
      obtain ⟨rfl, rfl⟩ := honly hr hpos
      refine ⟨fun r' hr' hpos' => ?_, ?_⟩
      · obtain ⟨j, hj⟩ := List.mem_iff_getElem?.mp hr'
        obtain ⟨-, rfl⟩ := honly hj hpos'
        exact hopening
      · rcases hcase with hcl | hpast | hreach
        · exact .inl hcl
        · exact .inr (.inl ⟨r, hr₀, hpos, hpast⟩)
        · refine .inr (.inr fun k r' hr' hdisc hout => ⟨i, r, ?_, hr, hpos⟩)
          by_contra hge
          rcases Nat.lt_or_ge k i with hlt | hge'
          · exact absurd (hreach k hlt r' hr' hdisc) (by omega)
          · obtain rfl : k = i := by omega
            obtain rfl := Option.some.inj (hr'.symm.trans hr)
            exact absurd hgenuine.lt (by omega)
    · intro hun
      refine ⟨i₀, r₀, hi₀, hpos₀, hun.first r₀ hr₀ hpos₀, ?_⟩
      rcases hun.served with hcl | ⟨r, hr, hpos, hpast⟩ | hbefore
      · exact .inl hcl
      · obtain ⟨j, hj⟩ := List.mem_iff_getElem?.mp hr
        obtain ⟨-, rfl⟩ := honly hj hpos
        exact .inr (.inl hpast)
      · refine .inr (.inr fun j hj r' hr' hdisc => ?_)
        by_contra hout
        obtain ⟨k, r'', hk, hr'', hpos''⟩ := hbefore j r' hr' hdisc (by omega)
        obtain ⟨rfl, -⟩ := honly hr'' hpos''
        omega
  · rw [hadded]
    have hlast : (s.wallet.receipts ++ [r₀])[s.wallet.receipts.length]? = some r₀ := List.getElem?_concat_length
    constructor
    · rintro ⟨i, r, hr, hpos, -, hcase⟩
      refine ⟨fun r' hr' hpos' => absurd hpos' (hfresh r' hr'), ?_⟩
      rcases Nat.lt_or_ge i s.wallet.receipts.length with hlt | hge
      · rw [List.getElem?_append_left hlt] at hr
        exact absurd hpos (hfresh r (List.mem_of_getElem? hr))
      · rw [List.getElem?_append_right hge, List.getElem?_singleton] at hr
        split_ifs at hr with hzero
        obtain rfl := Option.some.inj hr
        rcases hcase with hcl | hpast | hreach
        · exact .inl hcl
        · exact absurd hdisc₀ hpast
        · refine .inr (.inr fun k r' hr' hdisc hout => absurd hout (Nat.not_le.mpr ?_))
          have hk := (List.getElem?_eq_some_iff.mp hr').1
          exact hreach k (by omega) r' (by rw [List.getElem?_append_left hk, hr']) hdisc
    · intro hun
      refine ⟨_, r₀, hlast, hpos₀, hopening₀, ?_⟩
      rcases hun.served with hcl | ⟨r, hr, hpos, -⟩ | hbefore
      · exact .inl hcl
      · exact absurd hpos (hfresh r hr)
      · refine .inr (.inr fun j hj r' hr' hdisc => ?_)
        rw [List.getElem?_append_left hj] at hr'
        by_contra hout
        obtain ⟨k, r'', -, hr'', hpos''⟩ := hbefore j r' hr' hdisc (by omega)
        exact hfresh r'' (List.mem_of_getElem? hr'') hpos''

/-- Whatever came before, a genuine opening that is delivered stays usable in every run after it exactly when
nothing in the wallet hinders it. -/
theorem delivery_iff {s₀ : Inbox} (h₀ : OpenedInbox inst s₀) (hdepth : inst.receiptDepth = inst.nullDepth)
    (before : List InboxEvent) {position : Nat} {opening : ReceiptOpening} {e : InboxEvent}
    (hgenuine : Genuine c (exec (inboxStep c prover inst) s₀ before) position opening)
    (hdeliver : Delivers (exec (inboxStep c prover inst) s₀ before) position opening e) :
    (∀ after, Throughout (inboxStep c prover inst) (fun x => Usable c prover inst x position opening)
      (advance (inboxStep c prover inst) (exec (inboxStep c prover inst) s₀ before) e) after) ↔
      Unhindered (exec (inboxStep c prover inst) s₀ before) position opening := by
  have hsound : SoundInbox c inst (exec (inboxStep c prover inst) s₀ before) :=
    exec_invariant (I := SoundInbox c inst) _ (fun x a x' hx hstep => step_sound hx hstep) h₀.sound before
  generalize exec (inboxStep c prover inst) s₀ before = s at hsound hgenuine hdeliver ⊢
  obtain ⟨s', hstep, hlog, hclaimed, hreceipts⟩ : ∃ s', inboxStep c prover inst s e = .ok s' ∧ _ := delivered hdeliver
  rw [advance_of_ok _ hstep, ← delivered_ready_iff hsound hgenuine hlog hclaimed hreceipts]
  have hsound' := step_sound hsound hstep
  have hgenuine' := hgenuine.evolves (inboxStep_evolves hsound hstep).1
  constructor
  · intro h
    exact (usable_iff_ready hsound' hdepth hgenuine').mp (h [] 0)
  · intro hready after n
    have hall : let x := exec (inboxStep c prover inst) s' (after.take n)
        SoundInbox c inst x ∧ Genuine c x position opening ∧ Ready x position opening := by
      refine exec_invariant (I := fun x => SoundInbox c inst x ∧ Genuine c x position opening ∧
        Ready x position opening) _ (fun x a x' hx hstep => ?_) ⟨hsound', hgenuine', hready⟩ _
      have hevolves := (inboxStep_evolves hx.1 hstep).1
      exact ⟨step_sound hx.1 hstep, hx.2.1.evolves hevolves, hx.2.2.evolves hevolves⟩
    exact (usable_iff_ready hall.1 hdepth hall.2.1).mpr hall.2.2

end Usability

/-! ### A stranger's entry displaces a payment -/

def sampleInbox : Inbox := ⟨sampleWallet, .new sampleInstance.receiptDepth⟩

lemma sampleInbox_opened : OpenedInbox sampleInstance sampleInbox := ⟨rfl, rfl, rfl, rfl⟩

/-- Five units paid to the sample account. -/
def samplePayment : ReceiptOpening := ⟨5, 42, sampleWallet.account, 7⟩

def samplePaid : List InboxEvent := [.logged (receiptCommitment sampleCrypto samplePayment)]

theorem delivery_sample :
    (∀ after, Throughout (inboxStep sampleCrypto sampleProver sampleInstance)
      (fun x => Usable sampleCrypto sampleProver sampleInstance x 0 samplePayment)
      (advance (inboxStep sampleCrypto sampleProver sampleInstance)
        (exec (inboxStep sampleCrypto sampleProver sampleInstance) sampleInbox samplePaid)
        (.addReceipt 0 samplePayment none 1)) after) ↔
      Unhindered (exec (inboxStep sampleCrypto sampleProver sampleInstance) sampleInbox samplePaid) 0
        samplePayment :=
  delivery_iff sampleInbox_opened rfl samplePaid ⟨by decide +kernel, by decide +kernel⟩ ⟨rfl, rfl⟩

/-- A junk opening for the same position came first: the genuine one is delivered and dropped. -/
theorem delivery_fails :
    let s := exec (inboxStep sampleCrypto sampleProver sampleInstance) sampleInbox
      (samplePaid ++ [.addReceipt 0 ⟨1, 0, 0, 0⟩ none 1])
    OpenedInbox sampleInstance sampleInbox ∧ Genuine sampleCrypto s 0 samplePayment ∧
      Delivers s 0 samplePayment (.addReceipt 0 samplePayment none 2) ∧
      ¬Usable sampleCrypto sampleProver sampleInstance
        (advance (inboxStep sampleCrypto sampleProver sampleInstance) s (.addReceipt 0 samplePayment none 2)) 0
        samplePayment := by
  refine ⟨sampleInbox_opened, ⟨by decide +kernel, by decide +kernel⟩, ⟨rfl, rfl⟩, ?_⟩
  rintro ⟨i, r, hr, -, hopening, -⟩
  have hall : ∀ r ∈ (advance (inboxStep sampleCrypto sampleProver sampleInstance)
      (exec (inboxStep sampleCrypto sampleProver sampleInstance) sampleInbox
        (samplePaid ++ [.addReceipt 0 ⟨1, 0, 0, 0⟩ none 1]))
      (.addReceipt 0 samplePayment none 2)).wallet.receipts, r.opening ≠ samplePayment := by
    decide +kernel
  exact hall r (List.mem_of_getElem? hr) hopening

end Peal.Links
