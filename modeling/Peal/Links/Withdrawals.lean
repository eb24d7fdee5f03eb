import Peal.Links.Certificates

namespace Peal.Links
open Peal.Fallible Peal.Runs Peal.Interleaving

/-! # The status of a withdrawal, and the certificate it is answered with -/

variable {d : Deployment} {s : Network}

instance (s : Network) (n : NodeId) (key : Namespace × Nat) : Decidable (Confirmed s n key) :=
  inferInstanceAs (Decidable (∃ r ∈ (s.nodes n).withdrawals, r.key = key ∧ r.status = .confirmed))

/-! ### The watcher's statement -/

/-- The rows of a namespace as its watcher knows them. -/
def Node.withdrawalRows (node : Node) (namespaceId : Namespace) : List WithdrawalRow :=
  (node.withdrawals.filter fun r => r.namespaceId = namespaceId).map fun r =>
    ⟨r.withdrawalId, r.status = .confirmed, r.txHash⟩

/-- The watcher confirms a withdrawal of its own namespace, and changes nothing else. -/
theorem confirmWithdrawal_mirrors (node : Node) (p : Product) (namespaceId other : Namespace)
    (withdrawalId txHash : Text) (h : p.withdrawals = node.withdrawalRows other) :
    (node.confirmWithdrawal namespaceId withdrawalId txHash).withdrawalRows other =
      if other = namespaceId then (p.confirmWithdrawal withdrawalId txHash).withdrawals else p.withdrawals := by
  have hfilter : ∀ rows : List SettledRow, ((rows.map fun r =>
      if r.namespaceId = namespaceId ∧ r.withdrawalId = withdrawalId ∧ r.status ≠ .confirmed then
        { r with status := .confirmed, txHash := some txHash } else r).filter fun r => r.namespaceId = other) =
      (rows.filter fun r => r.namespaceId = other).map fun r =>
        if r.namespaceId = namespaceId ∧ r.withdrawalId = withdrawalId ∧ r.status ≠ .confirmed then
          { r with status := .confirmed, txHash := some txHash } else r := by
    intro rows
    rw [List.filter_map]
    congr 1
    refine List.filter_congr fun r _ => ?_
    dsimp only [Function.comp_apply]
    split_ifs <;> rfl
  unfold Node.withdrawalRows Node.confirmWithdrawal
  dsimp only
  rw [hfilter, List.map_map]
  split_ifs with hns
  · unfold Product.confirmWithdrawal
    dsimp only
    rw [h]
    unfold Node.withdrawalRows
    rw [List.map_map]
    refine List.map_congr_left fun r hr => ?_
    have hother : r.namespaceId = other := of_decide_eq_true (List.mem_filter.mp hr).2
    dsimp only [Function.comp_apply]
    by_cases hid : r.withdrawalId = withdrawalId <;> by_cases hstatus : r.status = .confirmed <;>
      simp [hother, hns, hid, hstatus]
  · rw [h]
    refine List.map_congr_left fun r hr => ?_
    have hother : r.namespaceId = other := of_decide_eq_true (List.mem_filter.mp hr).2
    dsimp only [Function.comp_apply]
    rw [if_neg fun hmatch => hns (hother.symm.trans hmatch.1)]

/-! ### One certificate in an epoch -/

/-- Two messages with one digest: the same recipient and the same amount. -/
def SameCertificate (d : Deployment) (m m' : WithdrawalMessage) : Prop :=
  ∃ digest wd, m.digest d.chain = .ok digest ∧ m'.digest d.chain = .ok digest ∧
    m.decode = .ok wd ∧ m'.decode = .ok wd

/-- A position has one row, and the certificates of an epoch a node answered with are one, and the one it stores. -/
structure OneCertificate (d : Deployment) (s : Network) : Prop where
  row : ∀ n, ((s.nodes n).withdrawals.map SettledRow.key).Nodup
  answers : ∀ a ∈ s.answers, ∀ b ∈ s.answers, a.node = b.node → a.claim.namespaceId = b.claim.namespaceId →
    a.claim.position = b.claim.position → a.certificate.message.epoch = b.certificate.message.epoch →
    SameCertificate d a.certificate.message b.certificate.message
  stored : ∀ a ∈ s.answers, ∀ r ∈ (s.nodes a.node).withdrawals, r.key = (a.claim.namespaceId, a.claim.position) →
    r.message.epoch = a.certificate.message.epoch → SameCertificate d r.message a.certificate.message

lemma Attentive.sameCertificate (hinj : Function.Injective d.chain.keccak256) (h : Attentive d s) {n : NodeId}
    {namespaceId : Namespace} {position : Nat} {m m' : WithdrawalMessage}
    (hm : Certifies d s n namespaceId position m) (hm' : Certifies d s n namespaceId position m')
    (hepoch : m.epoch = m'.epoch) : SameCertificate d m m' := by
  obtain ⟨digest, hdigest, hattested⟩ := hm
  obtain ⟨digest', hdigest', hattested'⟩ := hm'
  unfold Attests at hattested hattested'
  rw [hepoch] at hattested
  rw [← h.unique hattested hattested'] at hdigest'
  obtain ⟨wd, hwd, hwd'⟩ := decode_of_same_digest hinj hdigest hdigest'
  exact ⟨digest, wd, hdigest, hdigest', hwd, hwd'⟩

theorem Attentive.oneCertificate (hinj : Function.Injective d.chain.keccak256) (h : Attentive d s) :
    OneCertificate d s where
  row := h.settled
  answers a ha b hb hnode hns hposition hepoch := by
    have hfirst := h.answered a ha
    rw [hnode, hns, hposition] at hfirst
    exact h.sameCertificate hinj hfirst (h.answered b hb) hepoch
  stored a ha r hr hkey hepoch := by
    obtain ⟨hns, hposition⟩ := Prod.ext_iff.mp hkey
    have hrow := h.stored a.node r hr
    rw [show r.namespaceId = a.claim.namespaceId from hns, show r.position = a.claim.position from hposition] at hrow
    exact h.sameCertificate hinj hrow (h.answered a ha) hepoch

/-! ### When a confirmed withdrawal stays confirmed -/

/-- The step to come does not store another certificate over a confirmed withdrawal's. -/
def Spares (run : Run) : Happening → Prop
  | .resume k w => ∀ n claim message signatures next,
      run.running[k]? = some (n, .act (fun w s => (recertified n claim message signatures w s).2) next) →
        w.store = .ok () → ¬Confirmed run.state n (claim.namespaceId, claim.position)
  | _ => True

/-- A withdrawal confirmed at some point of the run is confirmed from there on. -/
def StaysConfirmed (d : Deployment) (run : Run) (es : List Happening) : Prop :=
  ∀ i j n key, i ≤ j → Confirmed (exec (Network.machine d).step run (es.take i)).state n key →
    Confirmed (exec (Network.machine d).step run (es.take j)).state n key

lemma recertified_reverts {n : NodeId} {claim : WithdrawalClaim} {message : WithdrawalMessage}
    {signatures : List Signature} {w : Outside} (hw : w.store = .ok ()) :
    ¬Confirmed (recertified n claim message signatures w s).2 n (claim.namespaceId, claim.position) := by
  unfold recertified Confirmed
  rw [hw]
  dsimp only
  rw [Network.setNode_self]
  rintro ⟨r, hr, hkey, hstatus⟩
  obtain ⟨r', -, rfl⟩ := List.mem_map.mp hr
  by_cases hmatch : r'.namespaceId = claim.namespaceId ∧ r'.position = claim.position
  · rw [if_pos hmatch] at hstatus
    dsimp only at hstatus
    cases hstatus
  · rw [if_neg hmatch] at hkey
    exact hmatch (Prod.ext_iff.mp hkey)

lemma recertified_spares {n m : NodeId} {claim : WithdrawalClaim} {message : WithdrawalMessage}
    {signatures : List Signature} {w : Outside} {key : Namespace × Nat}
    (hspared : w.store = .ok () → ¬Confirmed s n (claim.namespaceId, claim.position)) (h : Confirmed s m key) :
    Confirmed (recertified n claim message signatures w s).2 m key := by
  unfold recertified
  cases hw : w.store with
  | error e => exact h
  | ok u =>
    refine h.setNode fun r hr hstatus => ⟨r, List.mem_map.mpr ⟨r, hr, if_neg ?_⟩, rfl, hstatus⟩
    exact fun hmatch => hspared hw ⟨r, hr, Prod.ext hmatch.1 hmatch.2, hstatus⟩

lemma confirmed_change {u : Change} {t : Network} (hu : s.change d u = .ok t) {n : NodeId} {key : Namespace × Nat}
    (h : Confirmed s n key) : Confirmed t n key := by
  cases u with
  | finalize tx =>
    obtain rfl := Except.ok.inj hu
    exact h
  | apply m =>
    change (if _ then _ else _) = _ at hu
    split_ifs at hu
    obtain rfl := Except.ok.inj hu
    exact h.setNode fun r hr hstatus => ⟨r, hr, rfl, hstatus⟩
  | call e =>
    obtain ⟨chain, -, rfl⟩ := exceptMap_eq_ok.mp hu
    exact h
  | confirm m namespaceId withdrawalId txHash =>
    obtain rfl := Except.ok.inj hu
    refine h.setNode fun r hr hstatus => ⟨_, List.mem_map_of_mem hr, ?_, ?_⟩
    · split_ifs <;> rfl
    · split_ifs
      · rfl
      · exact hstatus

/-- A step takes a confirmation back exactly when it stores another certificate over it. -/
theorem confirmed_step_iff {run : Run} (htame : ∀ p ∈ run.running, Every (Tame p.1) p.2) (e : Happening) :
    (∀ n key, Confirmed run.state n key → Confirmed (advance (Network.machine d).step run e).state n key) ↔
      Spares run e := by
  constructor
  · intro h
    cases e with
    | resume k w =>
      intro n claim message signatures next hnext hw hconfirmed
      have hafter := h n _ hconfirmed
      rw [advance_of_ok _ (Machine.step_act hnext)] at hafter
      exact recertified_reverts hw hafter
    | _ => trivial
  · intro hspares n key hconfirmed
    refine advance_induct (P := fun run : Run => Confirmed run.state n key) _ hconfirmed fun run' hstep => ?_
    cases e with
    | request i r =>
      obtain rfl := Except.ok.inj hstep
      exact hconfirmed
    | resume k w =>
      obtain ⟨i, update, next, hrunning, rfl⟩ := Machine.step_resume hstep
      rcases (htame _ (List.mem_of_getElem? hrunning)).1.confirmed with
        hkeeps | ⟨claim, message, signatures, hupdate⟩
      · exact hkeeps w run.state n key hconfirmed
      · dsimp only at hupdate
        subst hupdate
        exact recertified_spares (hspares i claim message signatures next hrunning) hconfirmed
    | crash i r =>
      obtain rfl := Except.ok.inj hstep
      exact hconfirmed.setNode fun row hrow hstatus => ⟨row, hrow, rfl, hstatus⟩
    | outside u =>
      obtain ⟨next, hu, rfl⟩ := Machine.step_outside hstep
      exact confirmed_change hu hconfirmed

/-- Over a run, the confirmations stay exactly when every step spares them. -/
theorem staysConfirmed_iff {run : Run} (htame : ∀ p ∈ run.running, Every (Tame p.1) p.2) (es : List Happening) :
    StaysConfirmed d run es ↔ Along (Network.machine d).step Spares run es := by
  have hall : ∀ before : List Happening,
      ∀ p ∈ (exec (Network.machine d).step run before).running, Every (Tame p.1) p.2 := fun before =>
    exec_invariant (I := fun run : Run => ∀ p ∈ run.running, Every (Tame p.1) p.2) _
      (fun _ _ _ h hstep => tame_step h hstep) htame before
  rw [along_iff]
  constructor
  · rintro h before e rest rfl
    refine (confirmed_step_iff (d := d) (hall before) e).mp fun n key hconfirmed => ?_
    have hnow : (before ++ e :: rest).take before.length = before := List.take_left
    have hnext : (before ++ e :: rest).take (before.length + 1) = before ++ [e] := by
      rw [List.take_length_add_append]
      rfl
    have hstays := h before.length (before.length + 1) n key (Nat.le_succ _) (by rwa [hnow])
    rwa [hnext, exec_concat] at hstays
  · intro h i j n key hij hconfirmed
    induction j, hij using Nat.le_induction with
    | base => exact hconfirmed
    | succ j hij ih =>
      rcases Nat.lt_or_ge j es.length with hlt | hge
      · have hsplit : es = es.take j ++ es[j] :: es.drop (j + 1) := by
          rw [← List.drop_eq_getElem_cons hlt, List.take_append_drop]
        rw [List.take_succ_eq_append_getElem hlt, exec_concat]
        exact (confirmed_step_iff (hall (es.take j)) es[j]).mpr (h _ _ _ hsplit) n key ih
      · rw [List.take_of_length_le hge] at ih
        rwa [List.take_of_length_le (by omega)]

/-- In every run a node answers a position with one certificate in an epoch, and a confirmed withdrawal stays confirmed
exactly while no certificate of another epoch is stored over it. -/
theorem withdrawal_status_kept_iff (hinj : Function.Injective d.chain.keccak256) (hblank : Blank s)
    (es : List Happening) :
    Throughout (Network.machine d).step (fun run => OneCertificate d run.state) ⟨s, []⟩ es ∧
      (StaysConfirmed d ⟨s, []⟩ es ↔ Along (Network.machine d).step Spares ⟨s, []⟩ es) := by
  have hsteady : ∀ n, Steady (Attentive d) (exec (Network.machine d).step ⟨s, []⟩ (es.take n)) := fun n =>
    exec_invariant (I := Steady (Attentive d)) _ (fun _ _ _ h hstep => attentive_step h hstep)
      ⟨hblank.attentive, fun p hp => absurd hp List.not_mem_nil⟩ (es.take n)
  exact ⟨fun n => (hsteady n).kept.oneCertificate hinj,
    staysConfirmed_iff (fun p hp => absurd hp List.not_mem_nil) es⟩

section Sample

/-- The sample withdrawal is settled, released and confirmed; then the signers rotate, and its claim is settled again. -/
def sampleRotation : List Happening :=
  sampleSettling ++ [.outside (.confirm 0 3 (wordHex (withdrawalId Gateway.sampleChain 3 0)) "0xab".toList),
    .outside (.call (1, .rotateSigners [5, 7] 2)), .request 0 (.settle sampleClaim)] ++
    List.replicate 8 (.resume 1 ⟨.ok (), .ok (), .ok 2, []⟩)

theorem withdrawal_status_kept_iff_sample :
    Throughout (Network.machine sampleSettlement).step (fun run => OneCertificate sampleSettlement run.state)
        ⟨sampleNetwork, []⟩ sampleRotation ∧
      (StaysConfirmed sampleSettlement ⟨sampleNetwork, []⟩ sampleRotation ↔
        Along (Network.machine sampleSettlement).step Spares ⟨sampleNetwork, []⟩ sampleRotation) :=
  withdrawal_status_kept_iff SortedPairTree.pairingHash_injective sampleNetwork_blank sampleRotation

/-- The certificate of the new epoch turns the confirmed withdrawal back to one that is ready. -/
theorem rotation_reverts :
    ¬∀ (d : Deployment) (s : Network) (es : List Happening), Function.Injective d.chain.keccak256 → Fresh d s →
      StaysConfirmed d ⟨s, []⟩ es := by
  intro h
  have hreverted := h sampleSettlement sampleNetwork sampleRotation SortedPairTree.pairingHash_injective
    sampleNetwork_fresh 15 25 0 (3, 0) (by decide) (by decide +kernel)
  exact absurd hreverted (by decide +kernel)

end Sample

end Peal.Links
