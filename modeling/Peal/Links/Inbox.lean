import Peal.Links.Wallet

namespace Peal.Links
open Peal.Fallible Peal.AppendTree

/-! # Openings from a public inbox

Anyone writes to an inbox, so a wallet is fed genuine openings and any others in any order. -/

section Served

variable (c : Crypto)

namespace ReceiptTree

def pathAt (t : ReceiptTree) (pos size : Nat) : Except Error MerklePath := do
  require (¬(size ≤ pos ∨ t.size < size)) (.wallet s!"no receipt at position {pos} in a log of {size}")
  let path := AppendTree.pathAt (treeNode c) 0 t.leaves size t.depth pos
  return ⟨path.map Prod.fst, path.map Prod.snd⟩

/-- What a node answers for a position: the path against its current root. -/
def served (t : ReceiptTree) (pos : Nat) : Except Error ReceiptWitness := do
  let path ← t.pathAt c pos t.size
  return ⟨path, t.root c⟩

end ReceiptTree

variable {c}

lemma served_eq_ok {t : ReceiptTree} {pos : Nat} {witness : ReceiptWitness} :
    t.served c pos = .ok witness ↔ pos < t.size ∧
      witness = ⟨⟨(AppendTree.pathAt (treeNode c) 0 t.leaves t.size t.depth pos).map Prod.fst,
        (AppendTree.pathAt (treeNode c) 0 t.leaves t.size t.depth pos).map Prod.snd⟩, t.root c⟩ := by
  simp only [ReceiptTree.served, ReceiptTree.pathAt, bind_eq_ok, require_eq_ok, pure_eq_ok]
  constructor
  · rintro ⟨path, ⟨-, hpos, rfl⟩, rfl⟩
    exact ⟨by omega, rfl⟩
  · rintro ⟨hpos, rfl⟩
    exact ⟨_, ⟨(), by omega, rfl⟩, rfl⟩

lemma rootFromPath_map (leaf : Fr) (path : List (Fr × Bool)) :
    rootFromPath c leaf ⟨path.map Prod.fst, path.map Prod.snd⟩ = climb (treeNode c) leaf path := by
  unfold rootFromPath climb
  rw [List.zip_map']
  simp

/-- A served path climbs from the receipt at its position to the current root. -/
theorem served_root {t : ReceiptTree} (hfits : t.size ≤ 2 ^ t.depth) {pos : Nat} {witness : ReceiptWitness}
    (h : t.served c pos = .ok witness) {leaf : Fr} (hleaf : t.leaves[pos]? = some leaf) :
    rootFromPath c leaf witness.path = witness.root := by
  obtain ⟨hpos, rfl⟩ := served_eq_ok.mp h
  have hget : t.leaves.getD pos 0 = leaf := by
    rw [List.getD_eq_getElem?_getD, hleaf]
    rfl
  have htop : pos / 2 ^ t.depth = 0 := Nat.div_eq_of_lt (lt_of_lt_of_le hpos hfits)
  rw [rootFromPath_map, ← hget, climb_pathAt hpos, htop]
  rfl

end Served

/-! ## account.ts -/

/-- A wallet with the receipt log its node serves. -/
structure Inbox where
  wallet : Wallet
  log : ReceiptTree

inductive InboxEvent where
  | logged (leaf : Fr)
  | addReceipt (position : Nat) (opening : ReceiptOpening) (reference : Option Text) (now : Nat)
  | prepareDeposit (amount : Nat) (reference : Option Text) (now : Nat) (randomness : Fr)
  | depositMinted (receipt : Fr) (position now : Nat)
  | verifyReceipt (idx : Nat)
  | verifyReceipts
  | claim (idx now : Nat) (rNew rDummy : Fr)
  | commitPending (position now : Nat)
  | abortPending
  deriving DecidableEq, Repr

section Steps

variable (c : Crypto) (prover : Prover) (inst : Instance)

/-- The pass over a snapshot of the receipts; a path that is not served throws, and ends it. -/
def verifyFrom (log : ReceiptTree) : List HeldReceipt → Nat → Wallet → Wallet
  | [], _, w => w
  | r :: rest, i, w =>
    if r.status ≠ .discovered then verifyFrom log rest (i + 1) w
    else
      match log.served c r.position with
      | .error _ => w
      | .ok witness =>
        match w.verifyReceipt c i witness with
        | .error _ => w
        | .ok (w', _) => verifyFrom log rest (i + 1) w'

def verifyReceipts (w : Wallet) (log : ReceiptTree) : Wallet := verifyFrom c log w.receipts 0 w

def claimReceipt (s : Inbox) (idx now : Nat) (rNew rDummy : Fr) : Except Error Wallet := do
  let held ← expect s.wallet.receipts[idx]? (.wallet "no such receipt")
  let witness ← s.log.served c held.position
  let (w, _) ← s.wallet.prepareReceive c prover inst idx witness now rNew rDummy
  return w

def inboxStep (s : Inbox) : InboxEvent → Except Error Inbox
  | .logged leaf => do
    let log ← s.log.append leaf
    return { s with log := log }
  | .addReceipt position opening reference now =>
    .ok { s with wallet := (s.wallet.addReceipt c position opening reference now).1 }
  | .prepareDeposit amount reference now randomness =>
    .ok { s with wallet := (s.wallet.prepareDeposit c amount reference now randomness).1 }
  | .depositMinted receipt position now => do
    let (w, _) ← expect (s.wallet.depositMinted c receipt position now) (.wallet "no such deposit")
    return { s with wallet := w }
  | .verifyReceipt idx => do
    let held ← expect s.wallet.receipts[idx]? (.wallet "no such receipt")
    let witness ← s.log.served c held.position
    let (w, _) ← s.wallet.verifyReceipt c idx witness
    return { s with wallet := w }
  | .verifyReceipts => .ok { s with wallet := verifyReceipts c s.wallet s.log }
  | .claim idx now rNew rDummy => do
    let w ← claimReceipt c prover inst s idx now rNew rDummy
    return { s with wallet := w }
  | .commitPending position now => do
    let w ← s.wallet.commitPending position now
    return { s with wallet := w }
  | .abortPending => .ok { s with wallet := s.wallet.abortPending }

end Steps

/-! ### What the pass leaves -/

section Pass

variable (c : Crypto)

/-- The receipts after a pass over them by a wallet. -/
def passOver (w : Wallet) (log : ReceiptTree) : List HeldReceipt → List HeldReceipt
  | [] => []
  | r :: rest =>
    if r.status ≠ .discovered then r :: passOver w log rest
    else
      match log.served c r.position with
      | .error _ => r :: rest
      | .ok witness =>
        { r with status := if w.receiptVerifies c r witness then .unclaimed else .invalid } :: passOver w log rest

variable {c}

lemma receiptVerifies_congr {w w' : Wallet} (ha : w'.account = w.account) (hc : w'.claimed = w.claimed)
    (r : HeldReceipt) (witness : ReceiptWitness) :
    w'.receiptVerifies c r witness = w.receiptVerifies c r witness := by
  cases w
  cases w'
  dsimp only at ha hc
  subst ha hc
  rfl

lemma passOver_congr {w w' : Wallet} (ha : w'.account = w.account) (hc : w'.claimed = w.claimed)
    (log : ReceiptTree) (rs : List HeldReceipt) : passOver c w' log rs = passOver c w log rs := by
  induction rs with
  | nil => rfl
  | cons r rest ih =>
    unfold passOver
    simp only [ih, receiptVerifies_congr ha hc]

lemma verifyReceipt_ok {w w' : Wallet} {i : Nat} {witness : ReceiptWitness} {ok : Bool}
    (h : w.verifyReceipt c i witness = .ok (w', ok)) : ∃ r, w.receipts[i]? = some r ∧
      w'.receipts = w.receipts.set i
        { r with status := if w.receiptVerifies c r witness then .unclaimed else .invalid } ∧
      w' = { w with receipts := w'.receipts, knownRoots := w'.knownRoots } := by
  simp only [Wallet.verifyReceipt, bind_eq_ok, expect_eq_ok] at h
  obtain ⟨r, hr, h⟩ := h
  have hset : ∀ st, w.receipts.modify i (fun r => { r with status := st }) =
      w.receipts.set i { r with status := st } := by
    intro st
    obtain ⟨hi, rfl⟩ := List.getElem?_eq_some_iff.mp hr
    exact List.modify_eq_set_get _ hi
  by_cases hv : w.receiptVerifies c r witness = true
  · rw [if_pos hv, pure_eq_ok] at h
    obtain ⟨rfl, -⟩ := Prod.mk.inj h
    refine ⟨r, hr, ?_, rfl⟩
    rw [if_pos hv]
    exact hset _
  · rw [if_neg hv, pure_eq_ok] at h
    obtain ⟨rfl, -⟩ := Prod.mk.inj h
    refine ⟨r, hr, ?_, rfl⟩
    rw [if_neg hv]
    exact hset _

lemma verifyFrom_spec (log : ReceiptTree) {rs : List HeldReceipt} {i : Nat} {w : Wallet}
    (h : w.receipts.drop i = rs) : let w' := verifyFrom c log rs i w
    w'.receipts = w.receipts.take i ++ passOver c w log rs ∧
      w' = { w with receipts := w'.receipts, knownRoots := w'.knownRoots } := by
  induction rs generalizing i w with
  | nil =>
    refine ⟨?_, rfl⟩
    have hsplit := List.take_append_drop i w.receipts
    rw [h] at hsplit
    exact hsplit.symm
  | cons r rest ih =>
    have hr : w.receipts[i]? = some r := by
      rw [← List.head?_drop, h]
      rfl
    have hi := (List.getElem?_eq_some_iff.mp hr).1
    have hrest : w.receipts.drop (i + 1) = rest := by
      rw [← List.tail_drop, h]
      rfl
    have htake (x : HeldReceipt) : (w.receipts.set i x).take (i + 1) = w.receipts.take i ++ [x] := by
      rw [List.take_succ_eq_append_getElem (by simpa using hi), List.take_set_of_le (le_refl i),
        List.getElem_set_self]
    dsimp only
    unfold verifyFrom passOver
    by_cases hs : r.status ≠ .discovered
    · rw [if_pos hs, if_pos hs]
      obtain ⟨hreceipts, hrest'⟩ := ih hrest
      refine ⟨?_, hrest'⟩
      rw [hreceipts, List.take_succ_eq_append_getElem hi, (List.getElem?_eq_some_iff.mp hr).2,
        List.append_assoc, List.singleton_append]
    · rw [if_neg hs, if_neg hs]
      cases hserved : log.served c r.position with
      | error e =>
        refine ⟨?_, rfl⟩
        dsimp only
        rw [← h, List.take_append_drop]
      | ok witness =>
        cases hv : w.verifyReceipt c i witness with
        | error e =>
          simp [Wallet.verifyReceipt, hr, expect, bind, Except.bind] at hv
          split at hv <;> cases hv
        | ok out =>
          obtain ⟨w₁, ok⟩ := out
          obtain ⟨r', hr', hreceipts₁, hsame₁⟩ := verifyReceipt_ok hv
          obtain rfl : r = r' := Option.some.inj (hr.symm.trans hr')
          have hdrop : w₁.receipts.drop (i + 1) = rest := by
            rw [hreceipts₁, List.drop_set_of_lt (Nat.lt_succ_self i), hrest]
          obtain ⟨hreceipts, hsame⟩ := ih hdrop
          simp only [hv]
          refine ⟨?_, ?_⟩
          · rw [hreceipts, hreceipts₁, htake, List.append_assoc, List.singleton_append,
              passOver_congr (w := w) (by rw [hsame₁]) (by rw [hsame₁])]
          · rw [hsame, hsame₁]

theorem verifyReceipts_spec (w : Wallet) (log : ReceiptTree) : let w' := verifyReceipts c w log
    w'.receipts = passOver c w log w.receipts ∧
      w' = { w with receipts := w'.receipts, knownRoots := w'.knownRoots } := by
  exact verifyFrom_spec (c := c) log (show w.receipts.drop 0 = w.receipts from rfl)

lemma passOver_length (w : Wallet) (log : ReceiptTree) (rs : List HeldReceipt) :
    (passOver c w log rs).length = rs.length := by
  induction rs with
  | nil => rfl
  | cons r rest ih =>
    unfold passOver
    by_cases hs : r.status ≠ .discovered
    · rw [if_pos hs, List.length_cons, ih, List.length_cons]
    · rw [if_neg hs]
      cases log.served c r.position with
      | error e => rfl
      | ok witness => simp only [List.length_cons, ih]

lemma passOver_entry {w : Wallet} {log : ReceiptTree} {rs : List HeldReceipt} {k : Nat} {r : HeldReceipt}
    (h : rs[k]? = some r) : (passOver c w log rs)[k]? = some r ∨
      r.status = .discovered ∧ ∃ witness, log.served c r.position = .ok witness ∧
        (passOver c w log rs)[k]? =
          some { r with status := if w.receiptVerifies c r witness then .unclaimed else .invalid } := by
  induction rs generalizing k with
  | nil => cases h
  | cons r₀ rest ih =>
    unfold passOver
    by_cases hs : r₀.status ≠ .discovered
    · rw [if_pos hs]
      cases k with
      | zero => exact .inl h
      | succ k => exact ih h
    · rw [if_neg hs]
      cases hserved : log.served c r₀.position with
      | error e => exact .inl h
      | ok witness =>
        cases k with
        | zero =>
          obtain rfl : r₀ = r := Option.some.inj h
          exact .inr ⟨not_not.mp hs, witness, hserved, rfl⟩
        | succ k => exact ih h

lemma passOver_reached {w : Wallet} {log : ReceiptTree} {rs : List HeldReceipt} {k : Nat} {r : HeldReceipt}
    (h : rs[k]? = some r) (hr : r.status = .discovered)
    (hserved : ∀ j ≤ k, ∀ r', rs[j]? = some r' → r'.status = .discovered → r'.position < log.size) :
    ∃ witness, log.served c r.position = .ok witness ∧ (passOver c w log rs)[k]? =
      some { r with status := if w.receiptVerifies c r witness then .unclaimed else .invalid } := by
  induction rs generalizing k with
  | nil => cases h
  | cons r₀ rest ih =>
    unfold passOver
    by_cases hs : r₀.status ≠ .discovered
    · rw [if_pos hs]
      cases k with
      | zero =>
        obtain rfl : r₀ = r := Option.some.inj h
        exact absurd hr hs
      | succ k => exact ih h fun j hj r' hr' => hserved (j + 1) (by omega) r' hr'
    · rw [if_neg hs]
      have hpos := hserved 0 (by omega) r₀ rfl (not_not.mp hs)
      rw [served_eq_ok.mpr ⟨hpos, rfl⟩]
      cases k with
      | zero =>
        obtain rfl : r₀ = r := Option.some.inj h
        exact ⟨_, served_eq_ok.mpr ⟨hpos, rfl⟩, rfl⟩
      | succ k => exact ih h fun j hj r' hr' => hserved (j + 1) (by omega) r' hr'

lemma passOver_blocked {w : Wallet} {log : ReceiptTree} {rs : List HeldReceipt} {j k : Nat} {r r' : HeldReceipt}
    (hj : rs[j]? = some r') (hr' : r'.status = .discovered) (hpos : log.size ≤ r'.position) (hjk : j ≤ k)
    (hk : rs[k]? = some r) : (passOver c w log rs)[k]? = some r := by
  induction rs generalizing j k with
  | nil => cases hk
  | cons r₀ rest ih =>
    unfold passOver
    by_cases hs : r₀.status ≠ .discovered
    · rw [if_pos hs]
      cases k with
      | zero => exact hk
      | succ k =>
        cases j with
        | zero =>
          obtain rfl : r₀ = r' := Option.some.inj hj
          exact absurd hr' hs
        | succ j => exact ih hj (by omega) hk
    · rw [if_neg hs]
      cases hserved : log.served c r₀.position with
      | error e => exact hk
      | ok witness =>
        have hlt := (served_eq_ok.mp hserved).1
        cases j with
        | zero =>
          obtain rfl : r₀ = r' := Option.some.inj hj
          exact absurd hlt (by omega)
        | succ j =>
          cases k with
          | zero => exact absurd hjk (by omega)
          | succ k => exact ih hj (by omega) hk

end Pass

/-! ### What a step does to the held receipts -/

section Evolution

variable (c : Crypto)

/-- A receipt in the log, opened to this account. -/
def Genuine (s : Inbox) (position : Nat) (opening : ReceiptOpening) : Prop :=
  s.log.leaves[position]? = some (receiptCommitment c opening) ∧ opening.receiver = s.wallet.account

/-- What a status says of its entry. -/
def StatusOk (s : Inbox) (position : Nat) (opening : ReceiptOpening) : ReceiptStatus → Prop
  | .discovered | .unclaimed | .claiming => True
  | .verified => False
  | .claimed => s.wallet.claimed.contains position = true
  | .invalid => position < s.log.size ∧
      (s.wallet.claimed.contains position = true ∨ ¬Genuine c s position opening)

/-- The claimed set that a pending receive carries. -/
def PendingOk (w : Wallet) : Prop :=
  ∀ p position amount, w.pending = some p → p.kind = .receive position amount →
    ∃ after, p.claimedAfter = some after ∧ after.depth = w.claimed.depth ∧
      after.contains position = true ∧ ∀ q, w.claimed.contains q = true → after.contains q = true

structure SoundInbox (inst : Instance) (s : Inbox) : Prop where
  receiptDepth : s.log.depth = inst.receiptDepth
  nullDepth : s.wallet.claimed.depth = inst.nullDepth
  fits : s.log.size ≤ 2 ^ s.log.depth
  commits : ∀ r ∈ s.wallet.receipts, r.receipt = receiptCommitment c r.opening
  status : ∀ r ∈ s.wallet.receipts, StatusOk c s r.position r.opening r.status
  distinct : ∀ (i j : Nat) (r r' : HeldReceipt), s.wallet.receipts[i]? = some r → s.wallet.receipts[j]? = some r' →
    r.position = r'.position → i = j
  pending : PendingOk s.wallet

/-- What every step keeps: entries change in status only and are never undiscovered, new ones come last and at
positions of their own, claims stay claimed, and the log grows. -/
structure Evolves (s s' : Inbox) : Prop where
  account : s'.wallet.account = s.wallet.account
  claimed : ∀ q, s.wallet.claimed.contains q = true → s'.wallet.claimed.contains q = true
  nullDepth : s'.wallet.claimed.depth = s.wallet.claimed.depth
  log : s.log.leaves <+: s'.log.leaves
  receiptDepth : s'.log.depth = s.log.depth
  fits : s'.log.size ≤ 2 ^ s'.log.depth
  kept : ∀ (k : Nat) (r : HeldReceipt), s.wallet.receipts[k]? = some r → ∃ st : ReceiptStatus,
    s'.wallet.receipts[k]? = some { r with status := st } ∧ (st = .discovered → r.status = .discovered) ∧ StatusOk c s' r.position r.opening st
  added : ∀ (k : Nat) (r : HeldReceipt), s'.wallet.receipts[k]? = some r → k < s.wallet.receipts.length ∨
    k = s.wallet.receipts.length ∧ r.receipt = receiptCommitment c r.opening ∧ r.status = .discovered ∧
      ∀ r₀ ∈ s.wallet.receipts, r₀.position ≠ r.position

variable {c} {s s' : Inbox} {inst : Instance}

lemma StatusOk.mono (s' : Inbox) (haccount : s'.wallet.account = s.wallet.account)
    (hclaimed : ∀ q, s.wallet.claimed.contains q = true → s'.wallet.claimed.contains q = true)
    (hlog : s.log.leaves <+: s'.log.leaves) {position : Nat} {opening : ReceiptOpening} {st : ReceiptStatus}
    (h : StatusOk c s position opening st) : StatusOk c s' position opening st := by
  cases st with
  | discovered => trivial
  | unclaimed => trivial
  | claiming => trivial
  | verified => exact h
  | claimed => exact hclaimed position h
  | invalid =>
    obtain ⟨hpos, h⟩ := h
    refine ⟨lt_of_lt_of_le hpos hlog.length_le, h.imp (hclaimed position) fun hnot hgenuine => hnot ?_⟩
    refine ⟨?_, hgenuine.2.trans haccount⟩
    rw [← hgenuine.1]
    rw [List.getElem?_eq_getElem hpos, List.prefix_iff_getElem?.mp hlog position hpos]

lemma evolves_restatus (h : SoundInbox c inst s) {w : Wallet} (haccount : w.account = s.wallet.account)
    (hclaimed : ∀ q, s.wallet.claimed.contains q = true → w.claimed.contains q = true)
    (hdepth : w.claimed.depth = s.wallet.claimed.depth) (hlen : w.receipts.length = s.wallet.receipts.length)
    (hkept : ∀ (k : Nat) (r : HeldReceipt), s.wallet.receipts[k]? = some r → ∃ st : ReceiptStatus,
      w.receipts[k]? = some { r with status := st } ∧ (st = .discovered → r.status = .discovered) ∧
        (StatusOk c s r.position r.opening r.status →
          StatusOk c { s with wallet := w } r.position r.opening st)) :
    Evolves c s { s with wallet := w } := by
  refine ⟨haccount, hclaimed, hdepth, List.prefix_refl _, rfl, h.fits, fun k r hr => ?_, fun k r hr => .inl ?_⟩
  · obtain ⟨st, hst, hdisc, hok⟩ := hkept k r hr
    exact ⟨st, hst, hdisc, hok (h.status r (List.mem_of_getElem? hr))⟩
  · rw [← hlen]
    exact (List.getElem?_eq_some_iff.mp hr).1

lemma evolves_same (h : SoundInbox c inst s) {w : Wallet} (haccount : w.account = s.wallet.account)
    (hclaimed : w.claimed = s.wallet.claimed) (hreceipts : w.receipts = s.wallet.receipts) :
    Evolves c s { s with wallet := w } := by
  have hmono : ∀ q, s.wallet.claimed.contains q = true → w.claimed.contains q = true := by
    intro q hq
    rw [hclaimed]
    exact hq
  refine evolves_restatus h haccount hmono (by rw [hclaimed]) (by rw [hreceipts]) fun k r hr => ?_
  exact ⟨r.status, by rw [hreceipts, hr], id, fun hok =>
    hok.mono { s with wallet := w } haccount hmono (List.prefix_refl _)⟩

lemma evolves_setStatus (h : SoundInbox c inst s) {w : Wallet} (haccount : w.account = s.wallet.account)
    (hclaimed : ∀ q, s.wallet.claimed.contains q = true → w.claimed.contains q = true)
    (hdepth : w.claimed.depth = s.wallet.claimed.depth) {idx : Nat} {st : ReceiptStatus}
    (hreceipts : w.receipts = s.wallet.receipts.modify idx fun r => { r with status := st })
    (hst : st ≠ .discovered) (hok : ∀ r, s.wallet.receipts[idx]? = some r →
      StatusOk c { s with wallet := w } r.position r.opening st) : Evolves c s { s with wallet := w } := by
  refine evolves_restatus h haccount hclaimed hdepth (by rw [hreceipts, List.length_modify]) fun k r hr => ?_
  rw [hreceipts, List.getElem?_modify, hr, Option.map_eq_map, Option.map_some]
  by_cases hk : idx = k
  · rw [if_pos hk]
    exact ⟨st, rfl, fun hdisc => absurd hdisc hst, fun _ => hok r (hk ▸ hr)⟩
  · rw [if_neg hk]
    exact ⟨r.status, rfl, id, fun hok =>
      hok.mono { s with wallet := w } haccount hclaimed (List.prefix_refl _)⟩

lemma SoundInbox.evolves (h : SoundInbox c inst s) (he : Evolves c s s') (hp : PendingOk s'.wallet) :
    SoundInbox c inst s' := by
  have hentry : ∀ (k : Nat) (r : HeldReceipt), s'.wallet.receipts[k]? = some r →
      (∃ r₀, s.wallet.receipts[k]? = some r₀ ∧ r = { r₀ with status := r.status } ∧
        StatusOk c s' r.position r.opening r.status) ∨
      (k = s.wallet.receipts.length ∧ r.receipt = receiptCommitment c r.opening ∧ r.status = .discovered ∧
        ∀ r₀ ∈ s.wallet.receipts, r₀.position ≠ r.position) := by
    intro k r hr
    rcases he.added k r hr with hk | hnew
    · obtain ⟨st, hst, -, hok⟩ := he.kept k _ (List.getElem?_eq_getElem hk)
      rw [hr] at hst
      obtain rfl := Option.some.inj hst
      exact .inl ⟨_, List.getElem?_eq_getElem hk, rfl, hok⟩
    · exact .inr hnew
  refine ⟨he.receiptDepth.trans h.receiptDepth, he.nullDepth.trans h.nullDepth, he.fits, fun r hr => ?_,
    fun r hr => ?_, fun i j r r' hi hj heq => ?_, hp⟩
  · obtain ⟨k, hk⟩ := List.mem_iff_getElem?.mp hr
    rcases hentry k r hk with ⟨r₀, hr₀, heq, -⟩ | ⟨-, hcommit, -, -⟩
    · rw [heq]
      exact h.commits r₀ (List.mem_of_getElem? hr₀)
    · exact hcommit
  · obtain ⟨k, hk⟩ := List.mem_iff_getElem?.mp hr
    rcases hentry k r hk with ⟨r₀, hr₀, heq, hok⟩ | ⟨-, -, hst, -⟩
    · exact hok
    · rw [hst]
      trivial
  · rcases hentry i r hi with ⟨r₀, hr₀, heq₀, -⟩ | ⟨hi', -, -, hfresh⟩
    · rcases hentry j r' hj with ⟨r₁, hr₁, heq₁, -⟩ | ⟨-, -, -, hfresh⟩
      · refine h.distinct i j r₀ r₁ hr₀ hr₁ ?_
        rw [heq₀, heq₁] at heq
        exact heq
      · rw [heq₀] at heq
        exact absurd heq (hfresh r₀ (List.mem_of_getElem? hr₀))
    · rcases hentry j r' hj with ⟨r₁, hr₁, heq₁, -⟩ | ⟨hj', -, -, -⟩
      · rw [heq₁] at heq
        exact absurd heq.symm (hfresh r₁ (List.mem_of_getElem? hr₁))
      · rw [hi', hj']

lemma PendingOk.of_same {w w' : Wallet} (h : PendingOk w) (hpending : w'.pending = w.pending)
    (hclaimed : w'.claimed = w.claimed) : PendingOk w' := by
  intro p position amount hp hkind
  rw [hclaimed]
  exact h p position amount (hpending.symm.trans hp) hkind

lemma PendingOk.none {w : Wallet} (h : w.pending = none) : PendingOk w := by
  intro p position amount hp
  rw [h] at hp
  cases hp

lemma verifies_of_genuine (h : SoundInbox c inst s) {r : HeldReceipt} (hr : r ∈ s.wallet.receipts)
    {witness : ReceiptWitness} (hserved : s.log.served c r.position = .ok witness)
    (hgenuine : Genuine c s r.position r.opening) (hunclaimed : s.wallet.claimed.contains r.position = false) :
    s.wallet.receiptVerifies c r witness = true := by
  have hcommit := h.commits r hr
  have hleaf : s.log.leaves[r.position]? = some r.receipt := by
    rw [hcommit]
    exact hgenuine.1
  have hroot := served_root h.fits hserved hleaf
  unfold Wallet.receiptVerifies
  exact decide_eq_true ⟨hcommit.symm, hgenuine.2, hroot, hunclaimed⟩

lemma verdict_ok (h : SoundInbox c inst s) {r : HeldReceipt} (hr : r ∈ s.wallet.receipts)
    {witness : ReceiptWitness} (hserved : s.log.served c r.position = .ok witness) :
    StatusOk c s r.position r.opening
      (if s.wallet.receiptVerifies c r witness then .unclaimed else .invalid) := by
  by_cases hv : s.wallet.receiptVerifies c r witness = true
  · rw [if_pos hv]
    trivial
  · rw [if_neg hv]
    refine ⟨(served_eq_ok.mp hserved).1, ?_⟩
    by_cases hclaimed : s.wallet.claimed.contains r.position = true
    · exact .inl hclaimed
    · exact .inr fun hgenuine => hv (verifies_of_genuine h hr hserved hgenuine (by simpa using hclaimed))

lemma addReceipt_same (w : Wallet) (position : Nat) (opening : ReceiptOpening) (reference : Option Text) (now : Nat) :
    (w.addReceipt c position opening reference now).1.account = w.account ∧
      (w.addReceipt c position opening reference now).1.claimed = w.claimed ∧
      (w.addReceipt c position opening reference now).1.pending = w.pending := by
  unfold Wallet.addReceipt
  cases w.receipts.findIdx? (fun r => r.position = position) with
  | some i => exact ⟨rfl, rfl, rfl⟩
  | none => exact ⟨rfl, rfl, rfl⟩

lemma addReceipt_receipts (w : Wallet) (position : Nat) (opening : ReceiptOpening) (reference : Option Text)
    (now : Nat) : let w' := (w.addReceipt c position opening reference now).1
    (w'.receipts = w.receipts ∧ ∃ r ∈ w.receipts, r.position = position) ∨
      (∀ r ∈ w.receipts, r.position ≠ position) ∧ w'.receipts = w.receipts ++
        [⟨position, receiptCommitment c opening, opening, .discovered, reference, now⟩] := by
  unfold Wallet.addReceipt
  cases hfind : w.receipts.findIdx? (fun r => r.position = position) with
  | some i =>
    obtain ⟨hi, hpos, -⟩ := List.findIdx?_eq_some_iff_getElem.mp hfind
    exact .inl ⟨rfl, _, List.getElem_mem hi, of_decide_eq_true hpos⟩
  | none =>
    refine .inr ⟨fun r hr => ?_, rfl⟩
    have := List.findIdx?_eq_none_iff.mp hfind r hr
    exact of_decide_eq_false this

lemma evolves_addReceipt (h : SoundInbox c inst s) (w : Wallet) (haccount : w.account = s.wallet.account)
    (hclaimed : w.claimed = s.wallet.claimed) (hreceipts : w.receipts = s.wallet.receipts) (position : Nat)
    (opening : ReceiptOpening) (reference : Option Text) (now : Nat) :
    Evolves c s { s with wallet := (w.addReceipt c position opening reference now).1 } := by
  obtain ⟨ha, hc, -⟩ := addReceipt_same (c := c) w position opening reference now
  rcases addReceipt_receipts (c := c) w position opening reference now with ⟨hsame, -⟩ | ⟨hfresh, hadded⟩
  · exact evolves_same h (ha.trans haccount) (hc.trans hclaimed) (hsame.trans hreceipts)
  · have hmono : ∀ q, s.wallet.claimed.contains q = true →
        (w.addReceipt c position opening reference now).1.claimed.contains q = true := by
      intro q hq
      rw [hc, hclaimed]
      exact hq
    rw [hreceipts] at hadded hfresh
    refine ⟨ha.trans haccount, hmono, by rw [hc, hclaimed], List.prefix_refl _, rfl, h.fits, fun k r hr => ?_,
      fun k r hr => ?_⟩
    · refine ⟨r.status, ?_, id, ?_⟩
      · dsimp only
        rw [hadded, List.getElem?_append_left (List.getElem?_eq_some_iff.mp hr).1, hr]
      · exact (h.status r (List.mem_of_getElem? hr)).mono
          { s with wallet := (w.addReceipt c position opening reference now).1 } (ha.trans haccount) hmono
          (List.prefix_refl _)
    · dsimp only at hr
      rw [hadded] at hr
      rcases Nat.lt_or_ge k s.wallet.receipts.length with hk | hk
      · exact .inl hk
      · rw [List.getElem?_append_right hk, List.getElem?_singleton] at hr
        split_ifs at hr with hzero
        obtain rfl := Option.some.inj hr
        exact .inr ⟨by omega, rfl, rfl, hfresh⟩

lemma insert_contains {after before : ClaimedSet} {pid : Nat} {insertion : SmtInsertion}
    (h : before.insert c pid = .ok (after, insertion)) : after.depth = before.depth ∧
      after.contains pid = true ∧ ∀ q, before.contains q = true → after.contains q = true := by
  unfold ClaimedSet.insert at h
  simp only [bind_eq_ok, require_eq_ok, pure_eq_ok, Prod.mk.injEq] at h
  obtain ⟨-, -, -, -, rfl, -⟩ := h
  unfold ClaimedSet.contains
  simp only [List.contains_eq_mem, decide_eq_true_eq, List.mem_append, List.mem_singleton]
  exact ⟨trivial, .inr trivial, fun q hq => .inl hq⟩

lemma prepareReceive_moves {prover : Prover} {w w' : Wallet} {idx : Nat} {witness : ReceiptWitness} {now : Nat}
    {rNew rDummy : Fr} {x : OpCircuit}
    (h : w.prepareReceive c prover inst idx witness now rNew rDummy = .ok (w', x)) :
    w'.account = w.account ∧ w'.claimed = w.claimed ∧
      w'.receipts = w.receipts.modify idx (fun r => { r with status := .claiming }) ∧ PendingOk w' := by
  unfold Wallet.prepareReceive Wallet.requireIdle at h
  simp only [bind_eq_ok, require_eq_ok, expect_eq_ok, pure_eq_ok, Prod.mk.injEq] at h
  obtain ⟨-, -, -, -, held, hheld, -, -, -, -, -, -, -, -, ⟨after, insertion⟩, hinsert, rfl, -⟩ := h
  refine ⟨rfl, rfl, rfl, ?_⟩
  intro p position amount hp hkind
  obtain rfl := Option.some.inj hp
  cases hkind
  obtain ⟨hdepth, hpid, hmono⟩ := insert_contains hinsert
  exact ⟨after, rfl, hdepth, hpid, hmono⟩

lemma setStatusAt_same (w : Wallet) (position : Nat) (st : ReceiptStatus) :
    (w.setStatusAt position st).account = w.account ∧ (w.setStatusAt position st).claimed = w.claimed := by
  unfold Wallet.setStatusAt
  cases w.receipts.findIdx? (fun r => r.position = position) with
  | some idx => exact ⟨rfl, rfl⟩
  | none => exact ⟨rfl, rfl⟩

lemma evolves_setStatusAt (h : SoundInbox c inst s) {w : Wallet} {position : Nat} {st : ReceiptStatus}
    (haccount : w.account = s.wallet.account)
    (hclaimed : ∀ q, s.wallet.claimed.contains q = true → w.claimed.contains q = true)
    (hdepth : w.claimed.depth = s.wallet.claimed.depth)
    (hreceipts : w.receipts = (s.wallet.setStatusAt position st).receipts) (hst : st ≠ .discovered)
    (hok : ∀ opening, StatusOk c { s with wallet := w } position opening st) :
    Evolves c s { s with wallet := w } := by
  unfold Wallet.setStatusAt at hreceipts
  cases hfind : s.wallet.receipts.findIdx? (fun r => r.position = position) with
  | none =>
    rw [hfind] at hreceipts
    refine evolves_restatus h haccount hclaimed hdepth (by rw [hreceipts]) fun k r hr => ?_
    exact ⟨r.status, by rw [hreceipts, hr], id, fun hok =>
      hok.mono { s with wallet := w } haccount hclaimed (List.prefix_refl _)⟩
  | some idx =>
    rw [hfind] at hreceipts
    refine evolves_setStatus h haccount hclaimed hdepth hreceipts hst fun r hr => ?_
    obtain ⟨hi, hpos, -⟩ := List.findIdx?_eq_some_iff_getElem.mp hfind
    rw [List.getElem?_eq_getElem hi] at hr
    obtain rfl := Option.some.inj hr
    rw [of_decide_eq_true hpos]
    exact hok _

lemma evolves_committed (h : SoundInbox c inst s) {p : PendingOp} (hp : s.wallet.pending = some p)
    (position now : Nat) : Evolves c s { s with wallet := s.wallet.committed p position now } := by
  unfold Wallet.committed
  cases hkind : p.kind with
  | send amount recipient opening reference => exact evolves_same h rfl rfl rfl
  | receive claimedPos amount =>
    obtain ⟨after, hafter, hdepth, hpid, hmono⟩ := h.pending p claimedPos amount hp hkind
    dsimp only
    rw [hafter, Option.getD_some]
    exact evolves_setStatusAt h (setStatusAt_same _ _ _).1 hmono hdepth rfl (fun hne => nomatch hne) fun _ => hpid

lemma evolves_abort (h : SoundInbox c inst s) : Evolves c s { s with wallet := s.wallet.abortPending } ∧
    s.wallet.abortPending.pending = none := by
  unfold Wallet.abortPending
  split
  · rename_i position amount _ _ _ _ _ _ _ _ _
    obtain ⟨haccount, hclaimed⟩ := setStatusAt_same s.wallet position .unclaimed
    refine ⟨evolves_setStatusAt h haccount (fun q hq => ?_) (by dsimp only; rw [hclaimed]) rfl
      (fun hne => nomatch hne) (fun _ => trivial), rfl⟩
    dsimp only
    rw [hclaimed]
    exact hq
  · exact ⟨evolves_same h rfl rfl rfl, rfl⟩

lemma evolves_verifyReceipts (h : SoundInbox c inst s) :
    Evolves c s { s with wallet := verifyReceipts c s.wallet s.log } := by
  obtain ⟨hreceipts, hsame⟩ := verifyReceipts_spec (c := c) s.wallet s.log
  have haccount : (verifyReceipts c s.wallet s.log).account = s.wallet.account := by rw [hsame]
  have hclaimed : (verifyReceipts c s.wallet s.log).claimed = s.wallet.claimed := by rw [hsame]
  have hmono : ∀ q, s.wallet.claimed.contains q = true →
      (verifyReceipts c s.wallet s.log).claimed.contains q = true := by
    intro q hq
    rw [hclaimed]
    exact hq
  have hkeep {position : Nat} {opening : ReceiptOpening} {st : ReceiptStatus}
      (hok : StatusOk c s position opening st) :
      StatusOk c { s with wallet := verifyReceipts c s.wallet s.log } position opening st :=
    hok.mono { s with wallet := verifyReceipts c s.wallet s.log } haccount hmono (List.prefix_refl _)
  refine evolves_restatus h haccount hmono (by rw [hclaimed]) (by rw [hreceipts, passOver_length]) fun k r hr => ?_
  rw [hreceipts]
  rcases passOver_entry hr with hkept | ⟨hdisc, witness, hserved, hst⟩
  · exact ⟨r.status, hkept, id, hkeep⟩
  · exact ⟨_, hst, fun _ => hdisc, fun _ => hkeep (verdict_ok h (List.mem_of_getElem? hr) hserved)⟩

/-- What every step does to the held receipts. -/
theorem inboxStep_evolves {prover : Prover} (h : SoundInbox c inst s) {e : InboxEvent}
    (hstep : inboxStep c prover inst s e = .ok s') : Evolves c s s' ∧ PendingOk s'.wallet := by
  cases e with
  | logged leaf =>
    simp only [inboxStep, ReceiptTree.append, bind_eq_ok, require_eq_ok, pure_eq_ok] at hstep
    obtain ⟨log, ⟨-, hroom, rfl⟩, rfl⟩ := hstep
    have hfits : (s.log.leaves ++ [leaf]).length ≤ 2 ^ s.log.depth := by
      have hmin : 2 ^ min s.log.depth 63 ≤ 2 ^ s.log.depth :=
        Nat.pow_le_pow_right (by decide) (Nat.min_le_left _ _)
      rw [List.length_append, List.length_singleton]
      exact (Nat.succ_le_of_lt hroom).trans hmin
    refine ⟨⟨rfl, fun _ hq => hq, rfl, List.prefix_append _ _, rfl, hfits, fun k r hr => ?_, fun k r hr => .inl ?_⟩,
      h.pending⟩
    · exact ⟨r.status, hr, id, StatusOk.mono (s := s) ⟨s.wallet, ⟨s.log.depth, s.log.leaves ++ [leaf]⟩⟩ rfl
        (fun _ hq => hq) (List.prefix_append _ _) (h.status r (List.mem_of_getElem? hr))⟩
    · exact (List.getElem?_eq_some_iff.mp hr).1
  | addReceipt position opening reference now =>
    obtain rfl := Except.ok.inj hstep
    obtain ⟨-, hclaimed, hpending⟩ := addReceipt_same (c := c) s.wallet position opening reference now
    exact ⟨evolves_addReceipt h s.wallet rfl rfl rfl position opening reference now, h.pending.of_same hpending hclaimed⟩
  | prepareDeposit amount reference now randomness =>
    obtain rfl := Except.ok.inj hstep
    exact ⟨evolves_same h rfl rfl rfl, h.pending.of_same rfl rfl⟩
  | depositMinted receipt position now =>
    simp only [inboxStep, bind_eq_ok, expect_eq_ok, pure_eq_ok] at hstep
    obtain ⟨⟨w, k⟩, hminted, rfl⟩ := hstep
    unfold Wallet.depositMinted at hminted
    cases hfind : s.wallet.pendingDeposits.findIdx? (fun d => d.receipt = receipt) with
    | none =>
      rw [hfind] at hminted
      cases hminted
    | some idx =>
      rw [hfind] at hminted
      obtain ⟨d, -, hadd⟩ := Option.map_eq_some_iff.mp hminted
      obtain rfl := congrArg Prod.fst hadd
      obtain ⟨-, hclaimed, hpending⟩ := addReceipt_same (c := c)
        { s.wallet with pendingDeposits := s.wallet.pendingDeposits.eraseIdx idx } position d.opening d.reference now
      exact ⟨evolves_addReceipt h { s.wallet with pendingDeposits := s.wallet.pendingDeposits.eraseIdx idx } rfl rfl rfl
        position d.opening d.reference now, h.pending.of_same hpending hclaimed⟩
  | verifyReceipt idx =>
    simp only [inboxStep, bind_eq_ok, expect_eq_ok, pure_eq_ok] at hstep
    obtain ⟨held, hheld, witness, hserved, ⟨w, ok⟩, hverify, rfl⟩ := hstep
    obtain ⟨r, hr, hreceipts, hsame⟩ := verifyReceipt_ok hverify
    obtain rfl : held = r := Option.some.inj (hheld.symm.trans hr)
    have hclaimed : w.claimed = s.wallet.claimed := by rw [hsame]
    have haccount : w.account = s.wallet.account := by rw [hsame]
    have hmono : ∀ q, s.wallet.claimed.contains q = true → w.claimed.contains q = true := by
      intro q hq
      rw [hclaimed]
      exact hq
    refine ⟨evolves_restatus h haccount hmono (by rw [hclaimed]) (by rw [hreceipts, List.length_set])
      fun k r hr => ?_, h.pending.of_same (by rw [hsame]) hclaimed⟩
    rw [hreceipts, List.getElem?_set]
    by_cases hk : idx = k
    · obtain rfl : held = r := Option.some.inj (hheld.symm.trans (hk ▸ hr))
      rw [if_pos hk, if_pos (List.getElem?_eq_some_iff.mp hheld).1]
      refine ⟨_, rfl, fun hdisc => ?_, fun _ =>
        (verdict_ok h (List.mem_of_getElem? hr) hserved).mono { s with wallet := w } haccount hmono
          (List.prefix_refl _)⟩
      split_ifs at hdisc
    · rw [if_neg hk]
      exact ⟨r.status, hr, id, fun hok => hok.mono { s with wallet := w } haccount hmono (List.prefix_refl _)⟩
  | verifyReceipts =>
    obtain rfl := Except.ok.inj hstep
    obtain ⟨-, hsame⟩ := verifyReceipts_spec (c := c) s.wallet s.log
    exact ⟨evolves_verifyReceipts h, h.pending.of_same (by rw [hsame]) (by rw [hsame])⟩
  | claim idx now rNew rDummy =>
    simp only [inboxStep, claimReceipt, bind_eq_ok, expect_eq_ok, pure_eq_ok] at hstep
    obtain ⟨w, ⟨held, hheld, witness, hserved, ⟨w', x⟩, hprepare, rfl⟩, rfl⟩ := hstep
    obtain ⟨haccount, hclaimed, hreceipts, hpending⟩ := prepareReceive_moves hprepare
    refine ⟨evolves_setStatus h haccount (fun q hq => ?_) (by rw [hclaimed]) hreceipts (fun hne => by cases hne)
      fun _ _ => trivial, hpending⟩
    dsimp only
    rw [hclaimed]
    exact hq
  | commitPending position now =>
    simp only [inboxStep, Wallet.commitPending, bind_eq_ok, expect_eq_ok, pure_eq_ok] at hstep
    obtain ⟨w, ⟨p, hp, rfl⟩, rfl⟩ := hstep
    refine ⟨evolves_committed h hp position now, PendingOk.none ?_⟩
    unfold Wallet.committed
    cases p.kind with
    | send amount recipient opening reference => rfl
    | receive claimedPos amount => rfl
  | abortPending =>
    obtain rfl := Except.ok.inj hstep
    obtain ⟨hevolves, hnone⟩ := evolves_abort h
    exact ⟨hevolves, PendingOk.none hnone⟩

lemma step_sound {prover : Prover} (h : SoundInbox c inst s) {e : InboxEvent}
    (hstep : inboxStep c prover inst s e = .ok s') : SoundInbox c inst s' := by
  obtain ⟨hevolves, hpending⟩ := inboxStep_evolves h hstep
  exact h.evolves hevolves hpending

end Evolution

end Peal.Links
