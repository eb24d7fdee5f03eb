import Peal.Links.Journal
import Mathlib.Tactic

namespace Peal.Links
open Peal.Fallible Peal.Runs

/-! # Backups of an account that several devices hold

A device seals its copy of the wallet and uploads it with a number; the node keeps the copies with the highest numbers.
A sealed copy stands here for itself. -/

namespace Wallet

variable (c : Crypto) (prover : Prover)

/-- What an account's code does with its wallet. -/
inductive Call where
  | markRegistered
  | prepareSend (inst : Instance) (amount : Nat) (recipient root : Fr) (reference : Option Text) (now : Nat)
      (rNew rReceipt : Fr)
  | prepareReceive (inst : Instance) (idx : Nat) (witness : ReceiptWitness) (now : Nat) (rNew rDummy : Fr)
  | provePending (keysCircuitId : Nat) (circuit : OpCircuit)
  | commitPending (position now : Nat)
  | abortPending
  | reconcile (ledgerCom : Fr) (position : Option Nat) (now : Nat)
  | verifyReceipt (idx : Nat) (witness : ReceiptWitness)
  | addReceipt (position : Nat) (opening : ReceiptOpening) (reference : Option Text) (now : Nat)
  | prepareDeposit (amount : Nat) (reference : Option Text) (now : Nat) (randomness : Fr)
  | depositMinted (receipt : Fr) (position now : Nat)

def call (w : Wallet) : Call → Except Error Wallet
  | .markRegistered => .ok { w with registered := true }
  | .prepareSend inst amount recipient root reference now rNew rReceipt =>
    (w.prepareSend c prover inst amount recipient root reference now rNew rReceipt).map Prod.fst
  | .prepareReceive inst idx witness now rNew rDummy =>
    (w.prepareReceive c prover inst idx witness now rNew rDummy).map Prod.fst
  | .provePending keysCircuitId circuit => (w.provePending prover keysCircuitId circuit).map Prod.fst
  | .commitPending position now => w.commitPending position now
  | .abortPending => .ok w.abortPending
  | .reconcile ledgerCom position now => (w.reconcile c ledgerCom position now).map Prod.fst
  | .verifyReceipt idx witness => (w.verifyReceipt c idx witness).map Prod.fst
  | .addReceipt position opening reference now => .ok (w.addReceipt c position opening reference now).1
  | .prepareDeposit amount reference now randomness => .ok (w.prepareDeposit c amount reference now randomness).1
  | .depositMinted receipt position now =>
    (expect (w.depositMinted c receipt position now) (.wallet "no such deposit")).map Prod.fst

/-- The part of a backup's number that counts the wallet. -/
def count (w : Wallet) : Nat := w.history.length + w.receipts.length + if w.registered then 1 else 0

/-- The other copy has the operation and the deposits that are open in this one. -/
def OpenIn (w w' : Wallet) : Prop :=
  (∀ p ∈ w.pending, ∃ p' ∈ w'.pending, { p' with envelope := none } = { p with envelope := none }) ∧
    ∀ d ∈ w.pendingDeposits, d ∈ w'.pendingDeposits

def openings (w : Wallet) : List (Nat × ReceiptOpening) := w.receipts.map fun r => (r.position, r.opening)

/-- The other copy has all this one needs: its open operation and deposits, its receipts, and the randomness it
commits to its balance with. -/
def CoveredBy (w w' : Wallet) : Prop :=
  w.OpenIn w' ∧ w.openings ⊆ w'.openings ∧ w.randomness = w'.randomness

instance (w w' : Wallet) : Decidable (w.OpenIn w') := inferInstanceAs (Decidable (_ ∧ _))

instance (w w' : Wallet) : Decidable (w.CoveredBy w') := inferInstanceAs (Decidable (_ ∧ _ ∧ _))

end Wallet

/-- A copy of the wallet, with the changes it has been through, by number. -/
structure Copy where
  wallet : Wallet
  path : List Nat
  deriving DecidableEq, Repr

/-- Nothing of a copy is lost with another: that one was made from it, or has all it needs. -/
def Copy.KeptBy (x y : Copy) : Prop := x.path <+: y.path ∨ x.wallet.CoveredBy y.wallet

instance (x y : Copy) : Decidable (x.KeptBy y) := inferInstanceAs (Decidable (_ ∨ _))

/-- A device's copy, and the version of the profile it holds. -/
structure Device where
  copy : Copy
  profile : Option Nat
  deriving DecidableEq, Repr

namespace Device

def version (d : Device) : Nat := d.profile.getD 1

def backupSeq (d : Device) : Nat := d.version * 2 ^ 32 + d.copy.wallet.count

end Device

/-- `size` is the length of the blob, and `version` the profile version its number was made with. -/
structure BackupUpload where
  seq : Nat
  mechanism : String
  size : Nat
  copy : Copy
  version : Nat
  deriving DecidableEq, Repr

def MAX_BACKUP_BYTES : Nat := 1024 * 1024
def BACKUP_VERSIONS_KEPT : Nat := 8

/-- The numbers of the versions to keep. -/
def keptSeqs (rows : List BackupUpload) : List Nat :=
  ((rows.map BackupUpload.seq).mergeSort fun a b => b ≤ a).take BACKUP_VERSIONS_KEPT

def refuseOlder (latest : Option Nat) (seq : Nat) : Except String Unit :=
  match latest with
  | some l => require (l ≤ seq) s!"a newer backup (state version {l}) is stored; refusing an older one"
  | none => .ok ()

/-- The backups of one wallet address. -/
def storeBackup (rows : List BackupUpload) (b : BackupUpload) : Except String (List BackupUpload) := do
  require (b.size ≤ MAX_BACKUP_BYTES) "backup too large"
  require (b.mechanism = "wallet-signature" ∨ b.mechanism = "recovery-code") "unknown recovery mechanism"
  refuseOlder (rows.map BackupUpload.seq).max? b.seq
  let rows := (rows.filter fun r => r.seq ≠ b.seq) ++ [b]
  return rows.filter fun r => r.seq ∈ keptSeqs rows

def latestBackup (rows : List BackupUpload) : Option BackupUpload :=
  rows.find? fun r => rows.all fun r' => r'.seq ≤ r.seq

/-- The devices, the published profile version, the uploads under way and the node's rows. `changes` is how many wallet
changes there have been and `newest` the path of the last; `overwritten` are the stored backups with those that took
their place, and `restored` the devices' copies with the backups that did. -/
structure Backups where
  devices : Nat → Option Device
  directory : Option Nat
  uploads : List BackupUpload
  rows : List BackupUpload
  changes : Nat
  newest : List Nat
  overwritten : List (BackupUpload × BackupUpload)
  restored : List (Copy × Copy)

inductive BackupEvent where
  | change (d : Nat) (call : Wallet.Call)
  | publishProfile (d : Nat)
  | adoptProfile (d : Nat)
  | backupNow (d : Nat) (mechanism : String) (size : Nat)
  | storeBackup (i : Nat)
  | lost (i : Nat)
  | refreshFromBackup (d : Nat)
  | recover (d : Nat)

variable (c : Crypto) (prover : Prover)

namespace Backups

def device (s : Backups) (d : Nat) : Except Error Device := expect (s.devices d) (.wallet "no account stored here")

def setDevice (s : Backups) (d : Nat) (dev : Device) : Backups :=
  { s with devices := Function.update s.devices d (some dev) }

def step (s : Backups) : BackupEvent → Except Error Backups
  | .change d call => do
    let dev ← s.device d
    let wallet ← dev.copy.wallet.call c prover call
    let path := dev.copy.path ++ [s.changes]
    return { s.setDevice d { dev with copy := ⟨wallet, path⟩ } with changes := s.changes + 1, newest := path }
  | .publishProfile d => do
    let dev ← s.device d
    let version := (dev.profile.orElse fun _ => s.directory).getD 0 + 1
    require (∀ v ∈ s.directory, v < version) (.storage "version must exceed the published version")
    return { s.setDevice d { dev with profile := some version } with directory := some version }
  | .adoptProfile d => do
    let dev ← s.device d
    return s.setDevice d { dev with profile := s.directory.orElse fun _ => dev.profile }
  | .backupNow d mechanism size => do
    let dev ← s.device d
    return { s with uploads := s.uploads ++ [⟨dev.backupSeq, mechanism, size, dev.copy, dev.version⟩] }
  | .storeBackup i => do
    let b ← expect s.uploads[i]? (.storage "no such upload")
    let rows ← (Peal.Links.storeBackup s.rows b).mapError Error.storage
    return { s with
      uploads := s.uploads.eraseIdx i
      rows := rows
      overwritten := s.overwritten ++ (latestBackup s.rows).toList.map fun l => (l, b) }
  | .lost i => .ok { s with uploads := s.uploads.eraseIdx i }
  | .refreshFromBackup d => do
    let dev ← s.device d
    let stored ← expect (latestBackup s.rows) (.storage "no backup is stored for this wallet")
    require (dev.backupSeq < stored.seq) (.storage "not newer")
    return { s.setDevice d { dev with copy := stored.copy } with restored := s.restored ++ [(dev.copy, stored.copy)] }
  | .recover d => do
    require (s.devices d = none) (.wallet "an account already exists here; unlock or recover it")
    let stored ← expect (latestBackup s.rows) (.storage "no backup is stored for this wallet")
    return s.setDevice d ⟨stored.copy, none⟩

/-- One device with an account, and no backup yet. -/
def start (w : Wallet) (profile : Option Nat) : Backups where
  devices d := if d = 0 then some ⟨⟨w, []⟩, profile⟩ else none
  directory := profile
  uploads := []
  rows := []
  changes := 0
  newest := []
  overwritten := []
  restored := []

end Backups

/-- A backup takes the place of another one of which it loses nothing, and has a higher number if it has more. -/
def BackupUpload.Follows (b l : BackupUpload) : Prop :=
  l.copy.KeptBy b.copy ∧ (b.copy.wallet.CoveredBy l.copy.wallet ∨ l.seq < b.seq)

instance (b l : BackupUpload) : Decidable (b.Follows l) := inferInstanceAs (Decidable (_ ∧ _))

/-- No stored backup and no device's copy has been replaced by one that misses what it had. -/
def NeverBack (s : Backups) : Prop :=
  (∀ r ∈ s.overwritten, r.2.Follows r.1) ∧ ∀ r ∈ s.restored, r.1.KeptBy r.2

instance (s : Backups) : Decidable (NeverBack s) := inferInstanceAs (Decidable (_ ∧ _))

/-- What the node takes at all. -/
def BackupUpload.Accepted (b : BackupUpload) : Prop :=
  b.size ≤ MAX_BACKUP_BYTES ∧ (b.mechanism = "wallet-signature" ∨ b.mechanism = "recovery-code")

instance (b : BackupUpload) : Decidable b.Accepted := inferInstanceAs (Decidable (_ ∧ _))

/-- The wallet changes on a copy with all changes so far, and copies are compared under one profile version, unless the
one that wins has all changes so far. -/
def OneLine (s : Backups) : BackupEvent → Prop
  | .change d call => ∀ dev ∈ s.devices d, (dev.copy.wallet.call c prover call).toOption.isSome →
      dev.copy.path = s.newest
  | .storeBackup i => ∀ b ∈ s.uploads[i]?, ∀ l ∈ latestBackup s.rows, b.Accepted → l.seq ≤ b.seq →
      b.version = l.version ∨ l.seq < b.seq ∧ b.copy.path = s.newest
  | .refreshFromBackup d => ∀ dev ∈ s.devices d, ∀ l ∈ latestBackup s.rows, dev.backupSeq < l.seq →
      dev.version = l.version ∨ l.copy.path = s.newest
  | _ => True

/-- An upload with the stored backup's number opens no operation or deposit that is not open there; and unless it was
made from the stored copy, the stored one opens none that is not open here. -/
def SameOpen (s : Backups) : BackupEvent → Prop
  | .storeBackup i => ∀ b ∈ s.uploads[i]?, ∀ l ∈ latestBackup s.rows, b.Accepted → b.seq = l.seq →
      b.copy.wallet.OpenIn l.copy.wallet ∧
        (l.copy.path <+: b.copy.path ∨ l.copy.wallet.OpenIn b.copy.wallet)
  | _ => True

/-! ### A wallet along its changes -/

namespace Wallet

/-- What later copies keep of a wallet, as far as a backup's number tells. -/
structure Grows (w w' : Wallet) : Prop where
  history : w.history.length ≤ w'.history.length
  openings : w.openings <+: w'.openings
  registered : w.registered = true → w'.registered = true
  randomness : w.history.length = w'.history.length → w.randomness = w'.randomness

variable {c prover} {w w' w'' : Wallet}

lemma Grows.refl (w : Wallet) : Grows w w := ⟨le_rfl, List.prefix_refl _, id, fun _ => rfl⟩

lemma Grows.trans (h : Grows w w') (h' : Grows w' w'') : Grows w w'' where
  history := h.history.trans h'.history
  openings := h.openings.trans h'.openings
  registered hr := h'.registered (h.registered hr)
  randomness heq := by
    have hle := h.history
    have hle' := h'.history
    exact (h.randomness (by omega)).trans (h'.randomness (by omega))

lemma openings_length (w : Wallet) : w.openings.length = w.receipts.length := by
  rw [openings, List.length_map]

lemma Grows.count_parts (h : Grows w w') : w.receipts.length ≤ w'.receipts.length ∧
    (if w.registered then 1 else 0) ≤ if w'.registered then 1 else 0 := by
  refine ⟨?_, ?_⟩
  · rw [← openings_length, ← openings_length]
    exact h.openings.length_le
  · cases hw : w.registered with
    | false => exact Nat.zero_le _
    | true => rw [h.registered hw]

lemma Grows.count_le (h : Grows w w') : w.count ≤ w'.count := by
  obtain ⟨hreceipts, hregistered⟩ := h.count_parts
  exact Nat.add_le_add (Nat.add_le_add h.history hreceipts) hregistered

lemma Grows.same_count (h : Grows w w') (hcount : w.count = w'.count) :
    w.openings = w'.openings ∧ w.randomness = w'.randomness := by
  obtain ⟨hreceipts, hregistered⟩ := h.count_parts
  have hhistory := h.history
  unfold count at hcount
  refine ⟨h.openings.eq_of_length ?_, h.randomness (by omega)⟩
  rw [openings_length, openings_length]
  omega

lemma Grows.of_eq (hhistory : w'.history = w.history) (hopenings : w'.openings = w.openings)
    (hregistered : w'.registered = w.registered) (hrandomness : w'.randomness = w.randomness) : Grows w w' :=
  ⟨hhistory ▸ le_rfl, hopenings ▸ List.prefix_refl _, fun h => hregistered ▸ h, fun _ => hrandomness.symm⟩

@[simp] lemma openings_setStatus (w : Wallet) (idx : Nat) (status : ReceiptStatus) :
    (w.setStatus idx status).openings = w.openings := by
  unfold openings setStatus
  apply List.ext_getElem?
  intro i
  simp only [List.getElem?_map, List.getElem?_modify]
  split <;> cases w.receipts[i]? <;> rfl

lemma setStatusAt_grows (w : Wallet) (position : Nat) (status : ReceiptStatus) :
    Grows w (w.setStatusAt position status) := by
  unfold setStatusAt
  split
  · exact .of_eq rfl (openings_setStatus ..) rfl rfl
  · exact .refl w

lemma addReceipt_grows (w : Wallet) (position : Nat) (opening : ReceiptOpening) (reference : Option Text) (now : Nat) :
    Grows w (w.addReceipt c position opening reference now).1 := by
  unfold addReceipt
  split
  · exact .refl w
  · refine ⟨le_rfl, ?_, id, fun _ => rfl⟩
    simp only [openings, List.map_append]
    exact List.prefix_append _ _

lemma committed_grows (w : Wallet) (p : PendingOp) (position now : Nat) :
    Grows w (w.committed p position now) := by
  unfold committed
  cases p.kind with
  | send amount recipient opening reference =>
    refine ⟨?_, List.prefix_refl _, id, fun h => ?_⟩
    · exact (List.length_append ▸ Nat.le_add_right _ _ :)
    · simp at h
  | receive claimedPos amount =>
    have hstatus := setStatusAt_grows w claimedPos .claimed
    refine ⟨?_, hstatus.openings, hstatus.registered, fun h => ?_⟩
    · exact (List.length_append ▸ Nat.le_add_right _ _ :)
    · simp at h

lemma abortPending_grows (w : Wallet) : Grows w w.abortPending := by
  unfold abortPending
  rcases w.pending with _ | ⟨_ | ⟨position, amount⟩, _⟩
  · exact .of_eq rfl rfl rfl rfl
  · exact .of_eq rfl rfl rfl rfl
  · have hstatus := setStatusAt_grows w position .unclaimed
    exact ⟨hstatus.history, hstatus.openings, hstatus.registered, hstatus.randomness⟩

lemma call_grows {call : Call} (h : w.call c prover call = .ok w') : Grows w w' := by
  cases call with
  | markRegistered =>
    cases h
    exact ⟨le_rfl, List.prefix_refl _, fun _ => rfl, fun _ => rfl⟩
  | prepareSend inst amount recipient root reference now rNew rReceipt =>
    simp only [Wallet.call, prepareSend, exceptMap_eq_ok, bind_eq_ok, pure_eq_ok] at h
    obtain ⟨x, ⟨-, -, -, -, -, -, rfl⟩, rfl⟩ := h
    exact .of_eq rfl rfl rfl rfl
  | prepareReceive inst idx witness now rNew rDummy =>
    simp only [Wallet.call, prepareReceive, exceptMap_eq_ok, bind_eq_ok, pure_eq_ok] at h
    obtain ⟨x, ⟨-, -, -, -, held, -, -, -, -, -, -, -, -, -, ⟨after, insertion⟩, -, rfl⟩, rfl⟩ := h
    exact .of_eq rfl (openings_setStatus ..) rfl rfl
  | provePending keysCircuitId circuit =>
    simp only [Wallet.call, provePending, exceptMap_eq_ok, bind_eq_ok, pure_eq_ok] at h
    obtain ⟨x, ⟨p, -, -, -, -, -, rfl⟩, rfl⟩ := h
    exact .of_eq rfl rfl rfl rfl
  | commitPending position now =>
    simp only [Wallet.call, commitPending, bind_eq_ok, pure_eq_ok] at h
    obtain ⟨p, -, rfl⟩ := h
    exact committed_grows w p position now
  | abortPending =>
    cases h
    exact abortPending_grows w
  | reconcile ledgerCom position now =>
    simp only [Wallet.call, exceptMap_eq_ok] at h
    obtain ⟨⟨_, outcome⟩, h, rfl⟩ := h
    unfold Wallet.reconcile at h
    split at h
    · cases h
      exact .refl w
    · split at h
      · simp only [commitPending, bind_eq_ok, pure_eq_ok, Prod.mk.injEq] at h
        obtain ⟨pos, -, _, ⟨p, -, rfl⟩, rfl, -⟩ := h
        exact committed_grows w p pos now
      · split at h
        · cases h
          exact abortPending_grows w
        · cases h
          exact .refl w
  | verifyReceipt idx witness =>
    simp only [Wallet.call, exceptMap_eq_ok] at h
    obtain ⟨⟨_, verified⟩, h, rfl⟩ := h
    simp only [Wallet.verifyReceipt, bind_eq_ok] at h
    obtain ⟨r, -, h⟩ := h
    split at h
    · cases h
      exact .of_eq rfl (openings_setStatus ..) rfl rfl
    · cases h
      exact .of_eq rfl (openings_setStatus ..) rfl rfl
  | addReceipt position opening reference now =>
    cases h
    exact addReceipt_grows w position opening reference now
  | prepareDeposit amount reference now randomness =>
    cases h
    exact .of_eq rfl rfl rfl rfl
  | depositMinted receipt position now =>
    simp only [Wallet.call, exceptMap_eq_ok, expect_eq_ok] at h
    obtain ⟨x, h, rfl⟩ := h
    unfold Wallet.depositMinted at h
    split at h
    · cases h
    · next idx _ =>
      obtain ⟨d, -, rfl⟩ := Option.map_eq_some_iff.mp h
      have hadd := addReceipt_grows (c := c) { w with pendingDeposits := w.pendingDeposits.eraseIdx idx } position
        d.opening d.reference now
      exact ⟨hadd.history, hadd.openings, hadd.registered, hadd.randomness⟩

end Wallet

/-! ### The node's rows -/

section Rows

variable {rows rows' : List BackupUpload} {b l : BackupUpload}

lemma latestBackup_spec (h : latestBackup rows = some l) : l ∈ rows ∧ ∀ r ∈ rows, r.seq ≤ l.seq := by
  have hall := List.find?_some h
  rw [List.all_eq_true] at hall
  exact ⟨List.mem_of_find?_eq_some h, fun r hr => of_decide_eq_true (hall r hr)⟩

lemma latestBackup_eq (hb : b ∈ rows) (hmax : ∀ r ∈ rows, r.seq ≤ b.seq)
    (hone : ∀ r ∈ rows, r.seq = b.seq → r = b) : latestBackup rows = some b := by
  have hsome : (latestBackup rows).isSome := by
    refine List.find?_isSome.mpr ⟨b, hb, List.all_eq_true.mpr fun r hr => ?_⟩
    exact decide_eq_true (hmax r hr)
  obtain ⟨l, hl⟩ := Option.isSome_iff_exists.mp hsome
  obtain ⟨hmem, hle⟩ := latestBackup_spec hl
  rw [hl, hone l hmem (le_antisymm (hmax l hmem) (hle b hb))]

lemma max_mem_keptSeqs (hb : b ∈ rows) (hmax : ∀ r ∈ rows, r.seq ≤ b.seq) : b.seq ∈ keptSeqs rows := by
  have hmem : b.seq ∈ (rows.map BackupUpload.seq).mergeSort fun a b => b ≤ a :=
    List.mem_mergeSort.mpr (List.mem_map_of_mem hb)
  have hsorted : ((rows.map BackupUpload.seq).mergeSort fun a b => b ≤ a).Pairwise fun a b => decide (b ≤ a) :=
    List.pairwise_mergeSort
      (fun a b c hab hbc => decide_eq_true ((of_decide_eq_true hbc).trans (of_decide_eq_true hab)))
      (fun a b => by simpa using Nat.le_total b a) _
  unfold keptSeqs
  cases hsort : (rows.map BackupUpload.seq).mergeSort fun a b => b ≤ a with
  | nil =>
    rw [hsort] at hmem
    cases hmem
  | cons first rest =>
    rw [hsort] at hmem hsorted
    have hfirst : first ∈ rows.map BackupUpload.seq := by
      have hin : first ∈ (rows.map BackupUpload.seq).mergeSort fun a b => b ≤ a := hsort ▸ List.mem_cons_self
      exact List.mem_mergeSort.mp hin
    obtain ⟨r, hr, rfl⟩ := List.mem_map.mp hfirst
    have hge : b.seq ≤ r.seq := by
      rcases List.mem_cons.mp hmem with heq | hrest
      · exact heq.le
      · exact of_decide_eq_true ((List.pairwise_cons.mp hsorted).1 _ hrest)
    rw [le_antisymm hge (hmax r hr)]
    exact List.mem_cons_self

lemma storeBackup_spec (h : storeBackup rows b = .ok rows') :
    b.Accepted ∧ (∀ r ∈ rows, r.seq ≤ b.seq) ∧ latestBackup rows' = some b ∧ ∀ r ∈ rows', r ∈ rows ∨ r = b := by
  unfold storeBackup at h
  simp only [bind_eq_ok, require_eq_ok, pure_eq_ok] at h
  obtain ⟨-, hsize, -, hmechanism, done, hlatest, rfl⟩ := h
  have hmax : ∀ r ∈ rows, r.seq ≤ b.seq := by
    intro r hr
    unfold refuseOlder at hlatest
    split at hlatest
    · next l hl =>
      exact ((List.max?_eq_some_iff.mp hl).2 _ (List.mem_map_of_mem hr)).trans (require_eq_ok.mp hlatest)
    · next hnone =>
      rw [List.max?_eq_none_iff, List.map_eq_nil_iff] at hnone
      rw [hnone] at hr
      cases hr
  have hmem : ∀ r ∈ (rows.filter fun r => r.seq ≠ b.seq) ++ [b], r ∈ rows ∧ r.seq ≠ b.seq ∨ r = b := by
    intro r hr
    rcases List.mem_append.mp hr with hold | hnew
    · exact .inl ⟨List.mem_of_mem_filter hold, of_decide_eq_true (List.mem_filter.mp hold).2⟩
    · exact .inr (List.mem_singleton.mp hnew)
  have hmax' : ∀ r ∈ (rows.filter fun r => r.seq ≠ b.seq) ++ [b], r.seq ≤ b.seq := by
    intro r hr
    rcases hmem r hr with ⟨hold, -⟩ | rfl
    · exact hmax r hold
    · exact le_rfl
  have hb : b ∈ (rows.filter fun r => r.seq ≠ b.seq) ++ [b] := List.mem_append_right _ (List.mem_singleton_self b)
  refine ⟨⟨hsize, hmechanism⟩, hmax, latestBackup_eq ?_ ?_ ?_, ?_⟩
  · exact List.mem_filter.mpr ⟨hb, decide_eq_true (max_mem_keptSeqs hb hmax')⟩
  · exact fun r hr => hmax' r (List.mem_of_mem_filter hr)
  · exact fun r hr heq => (hmem r (List.mem_of_mem_filter hr)).resolve_left fun hold => hold.2 heq
  · exact fun r hr => (hmem r (List.mem_of_mem_filter hr)).imp_left And.left

lemma storeBackup_accepts (hb : b.Accepted) (hmax : ∀ r ∈ rows, r.seq ≤ b.seq) :
    ∃ rows', storeBackup rows b = .ok rows' := by
  unfold storeBackup
  simp only [bind_eq_ok, require_eq_ok, pure_eq_ok]
  refine ⟨_, (), hb.1, (), hb.2, (), ?_, rfl⟩
  unfold refuseOlder
  split
  · next l hl =>
    obtain ⟨r, hr, rfl⟩ := List.mem_map.mp (List.max?_eq_some_iff.mp hl).1
    exact require_eq_ok.mpr (hmax r hr)
  · rfl

end Rows

/-! ### Copies on one line -/

namespace Backups

/-- A copy a device holds, or a backup carries. -/
def Has (s : Backups) (x : Copy) : Prop :=
  (∃ d dev, s.devices d = some dev ∧ dev.copy = x) ∨ ∃ u, (u ∈ s.uploads ∨ u ∈ s.rows) ∧ u.copy = x

/-- All copies are on the way to the newest, and a later one keeps what an earlier one counts. -/
structure Line (s : Backups) : Prop where
  within : ∀ x, s.Has x → x.path <+: s.newest
  grows : ∀ x y, s.Has x → s.Has y → x.path <+: y.path → x.wallet.Grows y.wallet
  numbers : ∀ u, u ∈ s.uploads ∨ u ∈ s.rows → u.seq = u.version * 2 ^ 32 + u.copy.wallet.count

variable {c prover} {s s' : Backups} {x y : Copy} {b l : BackupUpload}

lemma start_line (w : Wallet) (profile : Option Nat) : (start w profile).Line := by
  have hhas : ∀ x, (start w profile).Has x → x = ⟨w, []⟩ := by
    rintro x (⟨d, dev, hdev, rfl⟩ | ⟨u, hu | hu, rfl⟩)
    · simp only [start, Option.ite_none_right_eq_some, Option.some.injEq] at hdev
      obtain ⟨-, rfl⟩ := hdev
      rfl
    · cases hu
    · cases hu
  refine ⟨fun x hx => hhas x hx ▸ List.prefix_refl _, fun x y hx hy _ => ?_, ?_⟩
  · rw [hhas x hx, hhas y hy]
    exact .refl w
  · rintro u (hu | hu)
    · cases hu
    · cases hu

lemma Line.of_subset (h : s.Line) (hhas : ∀ x, s'.Has x → s.Has x) (hnewest : s'.newest = s.newest)
    (hnumbers : ∀ u, u ∈ s'.uploads ∨ u ∈ s'.rows → u.seq = u.version * 2 ^ 32 + u.copy.wallet.count) : s'.Line :=
  ⟨fun x hx => hnewest ▸ h.within x (hhas x hx), fun x y hx hy => h.grows x y (hhas x hx) (hhas y hy), hnumbers⟩

lemma Line.comparable (h : s.Line) (hx : s.Has x) (hy : s.Has y) : x.path <+: y.path ∨ y.path <+: x.path :=
  List.prefix_or_prefix_of_prefix (h.within x hx) (h.within y hy)

lemma Line.later (h : s.Line) (hx : s.Has x) (hy : s.Has y) (hcount : x.wallet.count < y.wallet.count) :
    x.path <+: y.path := by
  rcases h.comparable hx hy with hxy | hyx
  · exact hxy
  · exact absurd (h.grows y x hy hx hyx).count_le (not_le.mpr hcount)

lemma Line.same (h : s.Line) (hx : s.Has x) (hy : s.Has y) (hcount : x.wallet.count = y.wallet.count) :
    x.wallet.openings = y.wallet.openings ∧ x.wallet.randomness = y.wallet.randomness := by
  rcases h.comparable hx hy with hxy | hyx
  · exact (h.grows x y hx hy hxy).same_count hcount
  · obtain ⟨hopenings, hrandomness⟩ := (h.grows y x hy hx hyx).same_count hcount.symm
    exact ⟨hopenings.symm, hrandomness.symm⟩

lemma Line.follows_iff (h : s.Line) (hl : l ∈ s.rows) (hb : b ∈ s.uploads) (hle : l.seq ≤ b.seq)
    (hversion : b.version = l.version ∨ l.seq < b.seq ∧ b.copy.path = s.newest) :
    b.Follows l ↔ (b.seq = l.seq → b.copy.wallet.OpenIn l.copy.wallet ∧
      (l.copy.path <+: b.copy.path ∨ l.copy.wallet.OpenIn b.copy.wallet)) := by
  have hasl : s.Has l.copy := .inr ⟨l, .inr hl, rfl⟩
  have hasb : s.Has b.copy := .inr ⟨b, .inl hb, rfl⟩
  have hnuml := h.numbers l (.inr hl)
  have hnumb := h.numbers b (.inl hb)
  rcases hle.lt_or_eq with hlt | heq
  · have hpath : l.copy.path <+: b.copy.path := by
      rcases hversion with hsame | ⟨-, hnewest⟩
      · rw [hsame] at hnumb
        exact h.later hasl hasb (by omega)
      · exact hnewest ▸ h.within _ hasl
    exact ⟨fun _ hsame => absurd hsame hlt.ne', fun _ => ⟨.inl hpath, .inr hlt⟩⟩
  · have hsame : b.version = l.version := hversion.resolve_right fun hnew => hnew.1.ne heq
    rw [hsame] at hnumb
    obtain ⟨hopenings, hrandomness⟩ := h.same hasl hasb (by omega)
    have hcovered : b.copy.wallet.CoveredBy l.copy.wallet ↔ b.copy.wallet.OpenIn l.copy.wallet :=
      ⟨And.left, fun hopen => ⟨hopen, hopenings ▸ List.Subset.refl _, hrandomness.symm⟩⟩
    have hkept : l.copy.wallet.CoveredBy b.copy.wallet ↔ l.copy.wallet.OpenIn b.copy.wallet :=
      ⟨And.left, fun hopen => ⟨hopen, hopenings ▸ List.Subset.refl _, hrandomness⟩⟩
    rw [BackupUpload.Follows, Copy.KeptBy, hcovered, hkept, heq]
    constructor
    · rintro ⟨hold, hnew | hlt⟩ -
      · exact ⟨hnew, hold⟩
      · exact absurd hlt (lt_irrefl _)
    · intro hopen
      obtain ⟨hnew, hold⟩ := hopen rfl
      exact ⟨hold, .inl hnew⟩

lemma Line.refreshed (h : s.Line) {d : Nat} {dev : Device} (hdev : s.devices d = some dev) (hl : l ∈ s.rows)
    (hlt : dev.backupSeq < l.seq) (hversion : dev.version = l.version ∨ l.copy.path = s.newest) :
    dev.copy.KeptBy l.copy := by
  have hasl : s.Has l.copy := .inr ⟨l, .inr hl, rfl⟩
  have hasd : s.Has dev.copy := .inl ⟨d, dev, hdev, rfl⟩
  rcases hversion with hsame | hnewest
  · have hnuml := h.numbers l (.inr hl)
    rw [Device.backupSeq, hsame] at hlt
    exact .inl (h.later hasd hasl (by omega))
  · exact .inl (hnewest ▸ h.within _ hasd)

lemma has_setDevice {d : Nat} {dev : Device} (hx : (s.setDevice d dev).Has x) : x = dev.copy ∨ s.Has x := by
  rcases hx with ⟨d', dev', hdev', rfl⟩ | hx
  · replace hdev' : Function.update s.devices d (some dev) d' = some dev' := hdev'
    by_cases hd : d' = d
    · rw [hd, Function.update_self] at hdev'
      cases hdev'
      exact .inl rfl
    · rw [Function.update_of_ne hd] at hdev'
      exact .inr (.inl ⟨d', dev', hdev', rfl⟩)
  · exact .inr (.inr hx)

lemma Line.change (h : s.Line) {d : Nat} {dev : Device} {w : Wallet} (hdev : s.devices d = some dev)
    (hnewest : dev.copy.path = s.newest) (hgrows : dev.copy.wallet.Grows w) :
    Line { s.setDevice d { dev with copy := ⟨w, dev.copy.path ++ [s.changes]⟩ } with
      changes := s.changes + 1
      newest := dev.copy.path ++ [s.changes] } := by
  have hasd : s.Has dev.copy := .inl ⟨d, dev, hdev, rfl⟩
  have hshort : ∀ x, s.Has x → ¬dev.copy.path ++ [s.changes] <+: x.path := by
    intro x hx hpre
    have hle := (hpre.trans (h.within x hx)).length_le
    rw [List.length_append, hnewest] at hle
    exact absurd hle (Nat.not_succ_le_self _)
  refine ⟨fun x hx => ?_, fun x y hx hy hxy => ?_, h.numbers⟩
  · rcases has_setDevice hx with rfl | hold
    · exact List.prefix_refl _
    · exact (hnewest ▸ h.within x hold).trans (List.prefix_append _ _)
  · rcases has_setDevice hx with rfl | hxold <;> rcases has_setDevice hy with rfl | hyold
    · exact .refl w
    · exact absurd hxy (hshort y hyold)
    · exact (h.grows x dev.copy hxold hasd (hnewest ▸ h.within x hxold)).trans hgrows
    · exact h.grows x y hxold hyold hxy

lemma Line.next (h : s.Line) {e : BackupEvent} (he : OneLine c prover s e) (hstep : step c prover s e = .ok s') :
    s'.Line := by
  cases e with
  | change d call =>
    simp only [Backups.step, device, bind_eq_ok, expect_eq_ok, pure_eq_ok] at hstep
    obtain ⟨dev, hdev, w, hw, rfl⟩ := hstep
    exact h.change hdev (he dev hdev (by rw [hw]; rfl)) (Wallet.call_grows hw)
  | publishProfile d =>
    simp only [Backups.step, device, bind_eq_ok, expect_eq_ok, pure_eq_ok] at hstep
    obtain ⟨dev, hdev, -, -, rfl⟩ := hstep
    exact h.of_subset (fun x hx => (has_setDevice hx).elim (fun heq => .inl ⟨d, dev, hdev, heq.symm⟩) id) rfl h.numbers
  | adoptProfile d =>
    simp only [Backups.step, device, bind_eq_ok, expect_eq_ok, pure_eq_ok] at hstep
    obtain ⟨dev, hdev, rfl⟩ := hstep
    exact h.of_subset (fun x hx => (has_setDevice hx).elim (fun heq => .inl ⟨d, dev, hdev, heq.symm⟩) id) rfl h.numbers
  | backupNow d mechanism size =>
    simp only [Backups.step, device, bind_eq_ok, expect_eq_ok, pure_eq_ok] at hstep
    obtain ⟨dev, hdev, rfl⟩ := hstep
    refine h.of_subset (fun x hx => ?_) rfl fun u hu => ?_
    · rcases hx with hx | ⟨u, hu | hu, rfl⟩
      · exact .inl hx
      · rcases List.mem_append.mp hu with hold | hnew
        · exact .inr ⟨u, .inl hold, rfl⟩
        · rw [List.mem_singleton.mp hnew]
          exact .inl ⟨d, dev, hdev, rfl⟩
      · exact .inr ⟨u, .inr hu, rfl⟩
    · rcases hu with hu | hu
      · rcases List.mem_append.mp hu with hold | hnew
        · exact h.numbers u (.inl hold)
        · rw [List.mem_singleton.mp hnew]
          rfl
      · exact h.numbers u (.inr hu)
  | storeBackup i =>
    simp only [Backups.step, bind_eq_ok, expect_eq_ok, pure_eq_ok, mapError_eq_ok] at hstep
    obtain ⟨b, hb, rows, hrows, rfl⟩ := hstep
    have hold : ∀ u, u ∈ s.uploads.eraseIdx i ∨ u ∈ rows → u ∈ s.uploads ∨ u ∈ s.rows := by
      rintro u (hu | hu)
      · exact .inl ((List.eraseIdx_sublist _ _).subset hu)
      · rcases (storeBackup_spec hrows).2.2.2 u hu with hrow | rfl
        · exact .inr hrow
        · exact .inl (List.mem_of_getElem? hb)
    exact h.of_subset (fun x hx => hx.imp_right (Exists.imp fun u => And.imp_left (hold u))) rfl
      fun u hu => h.numbers u (hold u hu)
  | lost i =>
    simp only [Backups.step, Except.ok.injEq] at hstep
    subst hstep
    have hold : ∀ u, u ∈ s.uploads.eraseIdx i ∨ u ∈ s.rows → u ∈ s.uploads ∨ u ∈ s.rows :=
      fun u hu => hu.imp_left fun hmem => (List.eraseIdx_sublist _ _).subset hmem
    exact h.of_subset (fun x hx => hx.imp_right (Exists.imp fun u => And.imp_left (hold u))) rfl
      fun u hu => h.numbers u (hold u hu)
  | refreshFromBackup d =>
    simp only [Backups.step, device, bind_eq_ok, expect_eq_ok, pure_eq_ok] at hstep
    obtain ⟨dev, hdev, l, hl, -, -, rfl⟩ := hstep
    exact h.of_subset (fun x hx => (has_setDevice hx).elim
      (fun heq => .inr ⟨l, .inr (latestBackup_spec hl).1, heq.symm⟩) id) rfl h.numbers
  | recover d =>
    simp only [Backups.step, bind_eq_ok, expect_eq_ok, pure_eq_ok] at hstep
    obtain ⟨-, -, l, hl, rfl⟩ := hstep
    exact h.of_subset (fun x hx => (has_setDevice hx).elim
      (fun heq => .inr ⟨l, .inr (latestBackup_spec hl).1, heq.symm⟩) id) rfl h.numbers

lemma step_logs {e : BackupEvent} (hstep : step c prover s e = .ok s') (hstore : ∀ i, e ≠ .storeBackup i)
    (hrefresh : ∀ d, e ≠ .refreshFromBackup d) : s'.overwritten = s.overwritten ∧ s'.restored = s.restored := by
  cases e with
  | storeBackup i => exact absurd rfl (hstore i)
  | refreshFromBackup d => exact absurd rfl (hrefresh d)
  | lost i =>
    simp only [Backups.step, Except.ok.injEq] at hstep
    subst hstep
    exact ⟨rfl, rfl⟩
  | change d call =>
    simp only [Backups.step, device, bind_eq_ok, expect_eq_ok, pure_eq_ok] at hstep
    obtain ⟨-, -, -, -, rfl⟩ := hstep
    exact ⟨rfl, rfl⟩
  | publishProfile d =>
    simp only [Backups.step, device, bind_eq_ok, expect_eq_ok, pure_eq_ok] at hstep
    obtain ⟨-, -, -, -, rfl⟩ := hstep
    exact ⟨rfl, rfl⟩
  | adoptProfile d =>
    simp only [Backups.step, device, bind_eq_ok, expect_eq_ok, pure_eq_ok] at hstep
    obtain ⟨-, -, rfl⟩ := hstep
    exact ⟨rfl, rfl⟩
  | backupNow d mechanism size =>
    simp only [Backups.step, device, bind_eq_ok, expect_eq_ok, pure_eq_ok] at hstep
    obtain ⟨-, -, rfl⟩ := hstep
    exact ⟨rfl, rfl⟩
  | recover d =>
    simp only [Backups.step, bind_eq_ok, expect_eq_ok, pure_eq_ok] at hstep
    obtain ⟨-, -, -, -, rfl⟩ := hstep
    exact ⟨rfl, rfl⟩

lemma Line.store_iff (h : s.Line) {i : Nat} (he : OneLine c prover s (.storeBackup i)) (hsafe : NeverBack s) :
    NeverBack (advance (step c prover) s (.storeBackup i)) ↔ SameOpen s (.storeBackup i) := by
  cases hb : s.uploads[i]? with
  | none =>
    have hstep : step c prover s (.storeBackup i) = .error (.storage "no such upload") := by
      simp [Backups.step, hb, expect, bind, Except.bind]
    rw [advance_of_error _ hstep]
    exact ⟨fun _ b hb' => by simp [hb] at hb', fun _ => hsafe⟩
  | some b =>
    cases hstore : Peal.Links.storeBackup s.rows b with
    | error reason =>
      have hstep : step c prover s (.storeBackup i) = .error (.storage reason) := by
        simp [Backups.step, hb, hstore, expect, bind, Except.bind, Except.mapError]
      rw [advance_of_error _ hstep]
      refine ⟨fun _ b' hb' l hl haccepted heq => ?_, fun _ => hsafe⟩
      obtain rfl : b = b' := by simpa [hb] using hb'
      obtain ⟨rows, hrows⟩ := storeBackup_accepts haccepted fun r hr =>
        (heq ▸ (latestBackup_spec hl).2 r hr :)
      rw [hrows] at hstore
      cases hstore
    | ok rows =>
      obtain ⟨haccepted, hmax, -, -⟩ := storeBackup_spec hstore
      have hstep : step c prover s (.storeBackup i) = .ok { s with
          uploads := s.uploads.eraseIdx i
          rows := rows
          overwritten := s.overwritten ++ (latestBackup s.rows).toList.map fun l => (l, b) } := by
        simp [Backups.step, hb, hstore, expect, bind, Except.bind, Except.mapError, pure, Except.pure]
      rw [advance_of_ok _ hstep]
      cases hl : latestBackup s.rows with
      | none =>
        refine ⟨fun _ b' _ l hl' => by simp [hl] at hl', fun _ => ?_⟩
        simpa [NeverBack, hl] using hsafe
      | some l =>
        have hmem := (latestBackup_spec hl).1
        have hle := hmax l hmem
        have hfollows := h.follows_iff hmem (List.mem_of_getElem? hb) hle (he b hb l hl haccepted hle)
        have hnext : NeverBack { s with
            uploads := s.uploads.eraseIdx i
            rows := rows
            overwritten := s.overwritten ++ (some l).toList.map fun l => (l, b) } ↔ b.Follows l := by
          constructor
          · intro hnext
            exact hnext.1 (l, b) (List.mem_append_right _ (List.mem_singleton_self _))
          · intro hnew
            refine ⟨fun r hr => ?_, hsafe.2⟩
            rcases List.mem_append.mp hr with hold | hone
            · exact hsafe.1 r hold
            · rw [List.mem_singleton.mp hone]
              exact hnew
        rw [hnext, hfollows]
        constructor
        · intro hopen b' hb' l' hl' _
          obtain rfl : b = b' := by simpa [hb] using hb'
          obtain rfl : l = l' := by simpa [hl] using hl'
          exact hopen
        · exact fun hopen => hopen b hb l hl haccepted

lemma Line.refresh_safe (h : s.Line) {d : Nat} (he : OneLine c prover s (.refreshFromBackup d)) (hsafe : NeverBack s) :
    NeverBack (advance (step c prover) s (.refreshFromBackup d)) := by
  refine advance_induct _ hsafe fun s' hstep => ?_
  simp only [Backups.step, device, bind_eq_ok, expect_eq_ok, require_eq_ok, pure_eq_ok] at hstep
  obtain ⟨dev, hdev, l, hl, -, hlt, rfl⟩ := hstep
  refine ⟨hsafe.1, fun r hr => ?_⟩
  rcases List.mem_append.mp hr with hold | hone
  · exact hsafe.2 r hold
  · rw [List.mem_singleton.mp hone]
    exact h.refreshed hdev (latestBackup_spec hl).1 hlt (he dev hdev l hl hlt)

lemma Line.safe_iff (h : s.Line) {e : BackupEvent} (he : OneLine c prover s e) (hsafe : NeverBack s) :
    NeverBack (advance (step c prover) s e) ↔ SameOpen s e := by
  have hother (hstore : ∀ i, e ≠ .storeBackup i) (hrefresh : ∀ d, e ≠ .refreshFromBackup d) :
      NeverBack (advance (step c prover) s e) := by
    refine advance_induct _ hsafe fun s' hstep => ?_
    obtain ⟨hoverwritten, hrestored⟩ := step_logs hstep hstore hrefresh
    rw [NeverBack, hoverwritten, hrestored]
    exact hsafe
  cases e with
  | storeBackup i => exact h.store_iff he hsafe
  | refreshFromBackup d => exact ⟨fun _ => trivial, fun _ => h.refresh_safe he hsafe⟩
  | _ => exact ⟨fun _ => trivial, fun _ => hother (by simp) (by simp)⟩

/-- Where the wallet changes on one line of copies, no copy is ever replaced by one that misses what it had, and the
stored number grows with every change, exactly as long as an upload with the stored backup's number opens the same
operation and deposits. -/
theorem never_back (w : Wallet) (profile : Option Nat) (es : List BackupEvent)
    (hline : Along (step c prover) (OneLine c prover) (start w profile) es) :
    Throughout (step c prover) NeverBack (start w profile) es ↔
      Along (step c prover) SameOpen (start w profile) es := by
  refine throughout_iff_along_under (I := Line) (step c prover) (fun s e s' hs he hstep => hs.next he hstep)
    (fun s e hs he hsafe => hs.safe_iff he hsafe) (start_line w profile) ?_ hline
  exact ⟨fun _ h => absurd h List.not_mem_nil, fun _ h => absurd h List.not_mem_nil⟩

section Sample

instance decidableOneLine (s : Backups) : ∀ e, Decidable (OneLine c prover s e)
  | .change d call => inferInstanceAs (Decidable (∀ dev ∈ s.devices d,
      (dev.copy.wallet.call c prover call).toOption.isSome → dev.copy.path = s.newest))
  | .storeBackup i => inferInstanceAs (Decidable (∀ b ∈ s.uploads[i]?, ∀ l ∈ latestBackup s.rows, b.Accepted →
      l.seq ≤ b.seq → b.version = l.version ∨ l.seq < b.seq ∧ b.copy.path = s.newest))
  | .refreshFromBackup d => inferInstanceAs (Decidable (∀ dev ∈ s.devices d, ∀ l ∈ latestBackup s.rows,
      dev.backupSeq < l.seq → dev.version = l.version ∨ l.copy.path = s.newest))
  | .publishProfile _ => isTrue trivial
  | .adoptProfile _ => isTrue trivial
  | .backupNow .. => isTrue trivial
  | .lost _ => isTrue trivial
  | .recover _ => isTrue trivial

/-- The first device prepares a deposit and uploads; the second, recovered before, uploads the copy it has. -/
def backupRun : List BackupEvent :=
  [.backupNow 0 "wallet-signature" 100, .storeBackup 0, .recover 1, .change 0 (.prepareDeposit 5 none 0 11),
    .backupNow 0 "wallet-signature" 120, .storeBackup 0, .backupNow 1 "wallet-signature" 100, .storeBackup 0]

theorem never_back_sample :
    Throughout (step sampleCrypto sampleProver) NeverBack (start sampleWallet (some 1)) backupRun ↔
      Along (step sampleCrypto sampleProver) SameOpen (start sampleWallet (some 1)) backupRun :=
  never_back sampleWallet (some 1) backupRun (by decide +kernel)

/-- The opening of the pending deposit is overwritten with a copy that has the same number. -/
theorem deposit_overwritten :
    let s := exec (step sampleCrypto sampleProver) (start sampleWallet (some 1)) backupRun
    Along (step sampleCrypto sampleProver) (OneLine sampleCrypto sampleProver) (start sampleWallet (some 1)) backupRun ∧
    ¬NeverBack s ∧
    s.overwritten.map (fun r => (r.1.seq, r.1.copy.wallet.pendingDeposits.length,
      r.2.seq, r.2.copy.wallet.pendingDeposits.length)) =
      [(2 ^ 32 + 1, 0, 2 ^ 32 + 1, 1), (2 ^ 32 + 1, 1, 2 ^ 32 + 1, 0)] := by
  decide +kernel

end Sample

end Backups

end Peal.Links
