import Peal.Consensus.Actor
import Peal.Links.Restart
import Mathlib.Tactic

namespace Peal.Consensus
open Peal.Fallible Peal.Runs
open Peal.Links (Crypto Bytes Id Tx State)

/-! # The mempool of a validator -/

variable {cfg : Config}

namespace Pool

/-- The set of ids and the count of bytes are those of the entries, and the caps are kept. -/
structure Exact (cfg : Config) (p : Pool) : Prop where
  entry : ∀ e ∈ p.mempool, e.id = cfg.txId e.tx ∧ e.bytes = cfg.encodeTx e.tx
  nodup : (p.mempool.map PoolEntry.id).Nodup
  ids : p.mempoolIds = (p.mempool.map PoolEntry.id).toFinset
  bytes : p.mempoolBytes = (p.mempool.map fun e => e.bytes.length).sum
  count : p.mempool.length ≤ MAX_MEMPOOL_TXS
  size : p.mempoolBytes ≤ MAX_MEMPOOL_BYTES

def answered (p : Pool) : List Nat := p.answers.map Prod.fst

def submitter (waiter : Option (Nat × Nat)) : List Nat := waiter.toList.map Prod.fst

/-- The submissions without an answer: their transactions are being checked, or they wait for a block. -/
def pending (p : Pool) : List Nat :=
  (p.waiters.map fun w => w.2.reply) ++ (p.admitting.flatMap fun a => submitter a.waiter) ++
    p.admissions.flatMap fun m => m.toList.flatMap fun a => submitter a.waiter

/-- The places of a submission. -/
def held (p : Pool) (r : Nat) : Nat := p.answered.count r + p.pending.count r

/-- What an action of the pool does; `fresh` are the submissions it takes in. -/
structure Moves (cfg : Config) (fresh : List Nat) (p p' : Pool) : Prop where
  exact : p.Exact cfg → p'.Exact cfg
  held : ∀ r, p'.held r = p.held r + fresh.count r
  submitted : p'.submitted = p.submitted
  answers : p.answers ⊆ p'.answers
  waiters : ∀ w ∈ p.waiters, w ∈ p'.waiters ∨ w.2.reply ∈ p'.answered

variable {p p' p'' : Pool} {fresh : List Nat}

lemma Exact.of_eq (h : p.Exact cfg) (hpool : p'.mempool = p.mempool) (hids : p'.mempoolIds = p.mempoolIds)
    (hbytes : p'.mempoolBytes = p.mempoolBytes) : p'.Exact cfg where
  entry := hpool ▸ h.entry
  nodup := hpool ▸ h.nodup
  ids := by rw [hids, hpool, h.ids]
  bytes := by rw [hbytes, hpool, h.bytes]
  count := hpool ▸ h.count
  size := hbytes ▸ h.size

lemma Exact.mem_ids (h : p.Exact cfg) {id : Id} : id ∈ p.mempoolIds ↔ ∃ e ∈ p.mempool, e.id = id := by
  rw [h.ids, List.mem_toFinset, List.mem_map]

lemma answered_mono (h : p.answers ⊆ p'.answers) : p.answered ⊆ p'.answered := List.map_subset _ h

namespace Moves

lemma refl : Moves cfg [] p p where
  exact := id
  held _ := rfl
  submitted := rfl
  answers := List.Subset.refl _
  waiters _ h := .inl h

lemma trans {fresh' : List Nat} (h : Moves cfg fresh p p') (h' : Moves cfg fresh' p' p'') :
    Moves cfg (fresh ++ fresh') p p'' where
  exact hexact := h'.exact (h.exact hexact)
  held r := by rw [h'.held, h.held, List.count_append, Nat.add_assoc]
  submitted := h'.submitted.trans h.submitted
  answers := List.Subset.trans h.answers h'.answers
  waiters w hw := by
    rcases h.waiters w hw with hwait | hdone
    · exact h'.waiters w hwait
    · exact .inr (answered_mono h'.answers hdone)

lemma foldl {β : Type} {f : Pool → β → Pool} (h : ∀ p b, Moves cfg [] p (f p b)) (p : Pool) (bs : List β) :
    Moves cfg [] p (bs.foldl f p) := by
  induction bs generalizing p with
  | nil => exact refl
  | cons b bs ih => exact (h p b).trans (ih (f p b))

end Moves

/-! ### What each action does -/

lemma count_filter_add {α : Type} (q q' : α → Bool) (h : ∀ x, q' x = !q x) (f : α → Nat) (l : List α) (r : Nat) :
    ((l.filter q).map f).count r + ((l.filter q').map f).count r = (l.map f).count r := by
  obtain rfl : q' = fun x => !q x := funext h
  rw [← List.count_append, ← List.map_append]
  exact ((List.filter_append_perm q l).map f).count_eq r

lemma count_eraseIdx {α : Type} {l : List α} {i : Nat} {x : α} (h : l[i]? = some x) (f : α → List Nat) (r : Nat) :
    (l.flatMap f).count r = (f x).count r + ((l.eraseIdx i).flatMap f).count r := by
  obtain ⟨hi, rfl⟩ := List.getElem?_eq_some_iff.mp h
  rw [← List.count_append, ← List.flatMap_cons]
  exact (List.Perm.flatMap_right f (List.getElem_cons_eraseIdx_perm hi)).count_eq r |>.symm

lemma reply_moves (waiter : Option (Nat × Nat)) (r : Outcome) :
    Moves cfg (submitter waiter) p (p.reply waiter r) where
  exact h := h.of_eq rfl rfl rfl
  held i := by
    have hnew : (p.reply waiter r).answered = p.answered ++ submitter waiter := by
      simp [reply, answered, submitter, Function.comp_def]
    rw [held, hnew, List.count_append, held]
    exact Nat.add_right_comm _ _ _
  submitted := rfl
  answers := List.subset_append_left _ _
  waiters _ h := .inl h

lemma Exact.removeFromMempool_eq (h : p.Exact cfg) {id : Id} (hid : id ∈ p.mempoolIds) :
    ∃ before e after, p.mempool = before ++ e :: after ∧ e.id = id ∧ p.removeFromMempool id = { p with
      mempoolIds := p.mempoolIds.erase id
      mempool := before ++ after
      mempoolBytes := p.mempoolBytes - e.bytes.length } := by
  obtain ⟨e₀, hmem, hid₀⟩ := h.mem_ids.mp hid
  have hsome : (p.mempool.find? fun e => e.id = id).isSome :=
    List.find?_isSome.mpr ⟨e₀, hmem, decide_eq_true hid₀⟩
  obtain ⟨e, he⟩ := Option.isSome_iff_exists.mp hsome
  obtain ⟨hheid, before, after, hsplit, hbefore⟩ := List.find?_eq_some_iff_append.mp he
  have herase : p.mempool.eraseP (fun e => e.id = id) = before ++ after := by
    rw [hsplit, List.eraseP_append_right _ fun b hb => by simpa using hbefore b hb,
      List.eraseP_cons_of_pos (p := fun e : PoolEntry => e.id = id) hheid]
  refine ⟨before, e, after, hsplit, of_decide_eq_true hheid, ?_⟩
  rw [removeFromMempool, if_pos hid, he, ← herase]

lemma Exact.removeFromMempool (h : p.Exact cfg) (id : Id) : (p.removeFromMempool id).Exact cfg := by
  by_cases hid : id ∈ p.mempoolIds
  · obtain ⟨before, e, after, hsplit, rfl, hrem⟩ := h.removeFromMempool_eq hid
    have hnodup := h.nodup
    rw [hsplit, List.map_append, List.map_cons, List.nodup_middle, List.nodup_cons] at hnodup
    obtain ⟨hnew, hnodup⟩ := hnodup
    have hbytes := h.bytes
    rw [hsplit, List.map_append, List.map_cons, List.sum_append, List.sum_cons] at hbytes
    have hsub : (before ++ after).Sublist p.mempool :=
      hsplit ▸ (List.Sublist.refl before).append (List.sublist_cons_self e after)
    rw [hrem]
    constructor
    · exact fun x hx => h.entry x (hsub.subset hx)
    · rwa [List.map_append]
    · show p.mempoolIds.erase e.id = ((before ++ after).map PoolEntry.id).toFinset
      have hall : (p.mempool.map PoolEntry.id).toFinset =
          insert e.id (before.map PoolEntry.id ++ after.map PoolEntry.id).toFinset := by
        rw [hsplit, List.map_append, List.map_cons, ← List.toFinset_cons]
        exact List.toFinset_eq_of_perm _ _ List.perm_middle
      rw [h.ids, hall, List.map_append]
      exact Finset.erase_insert fun hmem => hnew (List.mem_toFinset.mp hmem)
    · show p.mempoolBytes - e.bytes.length = ((before ++ after).map _).sum
      rw [hbytes, List.map_append, List.sum_append]
      omega
    · exact hsub.length_le.trans h.count
    · exact (Nat.sub_le _ _).trans h.size
  · rwa [Pool.removeFromMempool, if_neg hid]

lemma removeFromMempool_frame (p : Pool) (id : Id) :
    (p.removeFromMempool id).answers = p.answers ∧ (p.removeFromMempool id).waiters = p.waiters ∧
      (p.removeFromMempool id).held = p.held ∧ (p.removeFromMempool id).submitted = p.submitted := by
  unfold removeFromMempool
  split_ifs
  · split <;> exact ⟨rfl, rfl, rfl, rfl⟩
  · exact ⟨rfl, rfl, rfl, rfl⟩

lemma removeFromMempool_moves (id : Id) : Moves cfg [] p (p.removeFromMempool id) := by
  obtain ⟨hanswers, hwaiters, hheld, hsub⟩ := p.removeFromMempool_frame id
  exact ⟨fun h => h.removeFromMempool id, fun r => by rw [hheld]; rfl, hsub, hanswers ▸ List.Subset.refl _,
    fun w hw => .inl (hwaiters ▸ hw)⟩

lemma answerWaiters_moves {id : Id} {answer : List Waiter → List (Nat × Outcome)}
    (h : ∀ ws, ((answer ws).map Prod.fst).Perm (ws.map Waiter.reply)) :
    Moves cfg [] p (p.answerWaiters id answer) where
  exact he := he.of_eq rfl rfl rfl
  held r := by
    have hcount := (h ((p.waiters.filter fun w => w.1 = id).map Prod.snd)).count_eq r
    rw [List.map_map] at hcount
    have hsplit := count_filter_add (fun w : Id × Waiter => w.1 ≠ id) (fun w => w.1 = id) (by simp)
      (fun w => w.2.reply) p.waiters r
    simp only [held, answered, pending, answerWaiters, List.map_append, List.count_append, List.count_nil]
    simp only [Function.comp_def] at hcount
    omega
  submitted := rfl
  answers := List.subset_append_left _ _
  waiters w hw := by
    by_cases hid : w.1 = id
    · have hmem : w.2.reply ∈ ((p.waiters.filter fun w => w.1 = id).map Prod.snd).map Waiter.reply := by
        rw [List.map_map]
        exact List.mem_map_of_mem (List.mem_filter.mpr ⟨hw, decide_eq_true hid⟩)
      right
      rw [answered, answerWaiters, List.map_append]
      exact List.mem_append_right _ ((h _).mem_iff.mpr hmem)
    · exact .inl (List.mem_filter.mpr ⟨hw, decide_eq_true hid⟩)

lemma same_replies (r : Outcome) (ws : List Waiter) : (same r ws).map Prod.fst = ws.map Waiter.reply := by
  simp [same, Function.comp_def]

lemma same_moves (id : Id) (r : Outcome) : Moves cfg [] p (p.answerWaiters id (same r)) :=
  answerWaiters_moves fun ws => by rw [same_replies]

lemma resultAnswers_replies (r : Outcome) (ws : List Waiter) :
    ((resultAnswers r ws).map Prod.fst).Perm (ws.map Waiter.reply) := by
  cases ws with
  | nil => exact .refl _
  | cons w ws =>
    rw [resultAnswers, List.map_append, same_replies]
    exact List.perm_append_singleton _ _

lemma admitTx_moves (tx : Tx) (waiter : Option (Nat × Nat)) (gossip : Bool) :
    Moves cfg (submitter waiter) p (p.admitTx tx waiter gossip) := by
  unfold admitTx
  split_ifs
  · exact reply_moves waiter _
  · exact reply_moves waiter _
  · refine ⟨fun h => h.of_eq rfl rfl rfl, fun r => ?_, rfl, List.Subset.refl _, fun w hw => .inl hw⟩
    simp only [held, answered, pending, List.flatMap_append, List.flatMap_singleton, List.count_append]
    omega

lemma onPeerTx_moves (bytes : Bytes) : Moves cfg [] p (p.onPeerTx cfg bytes) := by
  unfold onPeerTx
  split
  · split_ifs
    · exact Moves.refl
    · exact admitTx_moves _ none false
  · exact Moves.refl

lemma Moves.of_release {released : List Nat} {q : Pool} (h : Moves cfg released q p')
    (hpool : p.Exact cfg → q.Exact cfg) (hheld : ∀ r, p.held r = released.count r + q.held r)
    (hsub : q.submitted = p.submitted) (hanswers : q.answers = p.answers) (hwaiters : q.waiters = p.waiters) :
    Moves cfg [] p p' where
  exact he := h.exact (hpool he)
  held r := by rw [h.held, hheld, List.count_nil]; omega
  submitted := h.submitted.trans hsub
  answers := hanswers ▸ h.answers
  waiters := hwaiters ▸ h.waiters

lemma admissionDone_moves (s : State) (i : Nat) (confirmed : Except String Bool) :
    Moves cfg [] p (p.admissionDone cfg s i confirmed) := by
  unfold admissionDone
  split
  · exact Moves.refl
  · next a ha =>
    have herase := count_eraseIdx ha fun a => submitter a.waiter
    split
    · refine ⟨fun h => h.of_eq rfl rfl rfl, fun r => ?_, rfl, List.Subset.refl _, fun w hw => .inl hw⟩
      have hr := herase r
      simp only [held, answered, pending, List.flatMap_append, List.flatMap_singleton, Option.toList_some,
        List.count_append, List.count_nil]
      omega
    · refine (reply_moves a.waiter _).of_release (fun h => h.of_eq rfl rfl rfl) (fun r => ?_) rfl rfl rfl
      have hr := herase r
      simp only [held, answered, pending, List.flatMap_append, List.flatMap_singleton, Option.toList_none,
        List.flatMap_nil, List.append_nil, List.count_append]
      omega

lemma register_moves (id : Id) (waiter : Option (Nat × Nat)) (now : Nat) :
    Moves cfg (submitter waiter) p (p.register id waiter now) where
  exact h := h.of_eq rfl rfl rfl
  held r := by
    have hnew : ((waiter.toList.map fun w => (id, (⟨w.1, now + w.2⟩ : Waiter))).map fun w => w.2.reply) =
        submitter waiter := by
      simp [submitter, Function.comp_def]
    simp only [held, answered, pending, register, List.map_append, hnew, List.count_append]
    omega
  submitted := rfl
  answers := List.Subset.refl _
  waiters w hw := .inl (List.mem_append_left _ hw)

lemma Exact.enter (h : p.Exact cfg) {tx : Tx} (hid : cfg.txId tx ∉ p.mempoolIds)
    (hcount : p.mempool.length < MAX_MEMPOOL_TXS)
    (hsize : p.mempoolBytes + (cfg.encodeTx tx).length ≤ MAX_MEMPOOL_BYTES) (now : Nat) :
    Exact cfg { p with
      mempoolIds := insert (cfg.txId tx) p.mempoolIds
      mempoolBytes := p.mempoolBytes + (cfg.encodeTx tx).length
      mempool := p.mempool ++ [⟨cfg.txId tx, tx, cfg.encodeTx tx, now⟩] } := by
  have hnew : cfg.txId tx ∉ p.mempool.map PoolEntry.id := by
    rwa [h.ids, List.mem_toFinset] at hid
  constructor
  · intro e he
    rcases List.mem_append.mp he with hmem | hmem
    · exact h.entry e hmem
    · rw [List.mem_singleton.mp hmem]
      exact ⟨rfl, rfl⟩
  · show ((p.mempool ++ _).map PoolEntry.id).Nodup
    rw [List.map_append]
    exact h.nodup.append (List.nodup_singleton _) (List.disjoint_singleton.mpr hnew)
  · show insert _ p.mempoolIds = ((p.mempool ++ _).map PoolEntry.id).toFinset
    rw [h.ids, ← List.toFinset_cons, List.map_append]
    exact List.toFinset_eq_of_perm _ _ (List.perm_append_singleton _ _).symm
  · show _ = ((p.mempool ++ _).map _).sum
    rw [List.map_append, List.sum_append, ← h.bytes]
    rfl
  · show (p.mempool ++ _).length ≤ _
    rw [List.length_append]
    exact hcount
  · exact hsize

lemma enter_moves {tx : Tx} (hid : cfg.txId tx ∉ p.mempoolIds) (hcount : p.mempool.length < MAX_MEMPOOL_TXS)
    (hsize : p.mempoolBytes + (cfg.encodeTx tx).length ≤ MAX_MEMPOOL_BYTES) (now : Nat) :
    Moves cfg [] p { p with
      mempoolIds := insert (cfg.txId tx) p.mempoolIds
      mempoolBytes := p.mempoolBytes + (cfg.encodeTx tx).length
      mempool := p.mempool ++ [⟨cfg.txId tx, tx, cfg.encodeTx tx, now⟩] } :=
  ⟨fun h => h.enter hid hcount hsize now, fun _ => rfl, rfl, List.Subset.refl _, fun _ hw => .inl hw⟩

lemma onAdmitted_moves (a : Admission) (now : Nat) :
    Moves cfg (submitter a.waiter) p (p.onAdmitted cfg a now) := by
  have hreg : Moves cfg (submitter a.waiter) p (p.register (cfg.txId a.tx) a.waiter now) :=
    register_moves (cfg.txId a.tx) a.waiter now
  unfold onAdmitted
  dsimp only
  split_ifs with hid hfull
  · exact hreg
  · have hdone := hreg.trans (same_moves (cfg.txId a.tx) (.error (.storage "mempool is full; retry")))
    rwa [List.append_nil] at hdone
  · rw [not_or, not_le, not_lt] at hfull
    have hdone := hreg.trans (enter_moves hid hfull.1 hfull.2 now)
    rwa [List.append_nil] at hdone

lemma onAdmission_moves (i now : Nat) : Moves cfg [] p (p.onAdmission cfg i now) := by
  unfold onAdmission
  split
  · exact Moves.refl
  · next admitted ha =>
    have herase := count_eraseIdx ha fun m => m.toList.flatMap fun a => submitter a.waiter
    dsimp only
    split
    · next a =>
      refine (onAdmitted_moves a now).of_release (fun h => h.of_eq rfl rfl rfl) (fun r => ?_) rfl rfl rfl
      have hr := herase r
      simp only [Option.toList_some, List.flatMap_singleton] at hr
      simp only [held, answered, pending, List.count_append]
      omega
    · refine Moves.refl.of_release (fun h => h.of_eq rfl rfl rfl) (fun r => ?_) rfl rfl rfl
      have hr := herase r
      simp only [Option.toList_none, List.flatMap_nil] at hr
      simp only [held, answered, pending, List.count_append]
      omega

lemma expire_moves (id : Id) : Moves cfg [] p (p.expire id) :=
  (removeFromMempool_moves id).trans (same_moves id _)

lemma deadline_moves (r : Outcome) (now : Nat) :
    Moves cfg [] p { p with
      waiters := p.waiters.filter fun w => now < w.2.expires
      answers := p.answers ++ same r ((p.waiters.filter fun w => w.2.expires ≤ now).map Prod.snd) } where
  exact h := h.of_eq rfl rfl rfl
  held i := by
    have hopposite : ∀ w : Id × Waiter, decide (w.2.expires ≤ now) = !decide (now < w.2.expires) := by
      intro w
      rw [← decide_not]
      exact decide_eq_decide.mpr not_lt.symm
    have hsplit := count_filter_add (fun w : Id × Waiter => now < w.2.expires) (fun w => w.2.expires ≤ now) hopposite
      (fun w => w.2.reply) p.waiters i
    simp only [held, answered, pending, List.map_append, same_replies, List.map_map, Function.comp_def,
      List.count_append, List.count_nil]
    omega
  submitted := rfl
  answers := List.subset_append_left _ _
  waiters w hw := by
    rcases lt_or_ge now w.2.expires with hlater | hpassed
    · exact .inl (List.mem_filter.mpr ⟨hw, decide_eq_true hlater⟩)
    · right
      rw [answered, List.map_append, same_replies, List.map_map]
      exact List.mem_append_right _ (List.mem_map_of_mem (List.mem_filter.mpr ⟨hw, decide_eq_true hpassed⟩))

lemma onTick_moves (now : Nat) : Moves cfg [] p (p.onTick cfg now) :=
  (Moves.foldl (fun _ _ => expire_moves _) p _).trans (deadline_moves _ now)

lemma onTick_waiters {now : Nat} {w : Id × Waiter} (hw : w ∈ (p.onTick cfg now).waiters) : now < w.2.expires :=
  of_decide_eq_true (List.mem_filter.mp hw).2

lemma settle_moves (txs : List Tx) (results : List Outcome) : Moves cfg [] p (p.settle cfg txs results) :=
  Moves.foldl (fun _ (x : Tx × Outcome) =>
    (removeFromMempool_moves (cfg.txId x.1)).trans (answerWaiters_moves (resultAnswers_replies x.2))) p _

end Pool

/-! ### Runs -/

namespace Actor
open Pool

variable {a a' : Actor}

lemma onCompletion_moves (a : Actor) (i now : Nat) : Moves cfg [] a.toPool (a.onCompletion cfg i now).toPool := by
  unfold onCompletion
  split
  · exact Moves.refl
  · unfold onApplied
    dsimp only
    rw [drainFinalized, drain_toPool]
    split
    · exact Moves.refl
    · exact settle_moves _ _

lemma step_moves {e : Event} (h : step cfg a e = .ok a') : Moves cfg [] a.toPool a'.toPool ∨
    Moves cfg [a.submitted] { a.toPool with submitted := a.submitted + 1 } a'.toPool := by
  have hsame : ∀ b : Actor, b.toPool = a.toPool → Moves cfg [] a.toPool b.toPool := fun b hb => hb ▸ Moves.refl
  cases e <;> simp only [step, Except.ok.injEq] at h <;> subst h
  case propose context now =>
    split_ifs
    · exact .inl Moves.refl
    · exact .inl (hsame _ (onPropose_toPool ..))
  case proposeNow context now => exact .inl (hsame _ (onPropose_toPool ..))
  case verify context id now => exact .inl (hsame _ (onVerify_frame ..).1)
  case finalized id now => exact .inl (hsame _ (onFinalized_toPool ..))
  case block raw now => exact .inl (hsame _ (onBlock_toPool ..))
  case submit tx timeout => exact .inr (admitTx_moves tx (some (a.submitted, timeout)) true)
  case peerTx bytes => exact .inl (onPeerTx_moves bytes)
  case admissionDone i confirmed => exact .inl (admissionDone_moves a.state i confirmed)
  case admission i now => exact .inl (onAdmission_moves i now)
  case runTask i stored => exact .inl (hsame _ (runTask_toPool ..))
  case applied i now => exact .inl (onCompletion_moves a i now)
  case drop id => exact .inl (removeFromMempool_moves id)
  case tick now => exact .inl (onTick_moves now)

/-- The mempool is exact, and every submission so far is answered once or in one place. -/
def Accounted (cfg : Config) (a : Actor) : Prop :=
  a.toPool.Exact cfg ∧ ∀ r, a.toPool.held r = if r < a.submitted then 1 else 0

lemma start_accounted (s : State) : (start s).Accounted cfg := by
  refine ⟨⟨fun _ h => absurd h List.not_mem_nil, List.nodup_nil, rfl, rfl, Nat.zero_le _, Nat.zero_le _⟩, fun r => ?_⟩
  exact (if_neg (Nat.not_lt_zero r)).symm

lemma Accounted.step {e : Event} (h : a.Accounted cfg) (hstep : step cfg a e = .ok a') : a'.Accounted cfg := by
  obtain ⟨hexact, hheld⟩ := h
  rcases step_moves hstep with hmoves | hmoves
  · refine ⟨hmoves.exact hexact, fun r => ?_⟩
    rw [hmoves.held, hheld, hmoves.submitted, List.count_nil, Nat.add_zero]
  · refine ⟨hmoves.exact (hexact.of_eq rfl rfl rfl), fun r => ?_⟩
    have hbefore : a.toPool.held r + [a.submitted].count r = if r < a.submitted + 1 then 1 else 0 := by
      rw [hheld, List.count_singleton]
      rcases lt_trichotomy r a.submitted with hlt | rfl | hgt
      · simp [hlt, Nat.lt_succ_of_lt hlt, hlt.ne']
      · simp
      · simp [hgt.not_gt, hgt.ne, Nat.not_lt.mpr (Nat.succ_le_of_lt hgt)]
    rw [hmoves.held, hmoves.submitted]
    exact hbefore

lemma run_accounted (cfg : Config) (s : State) (es : List Event) : (exec (step cfg) (start s) es).Accounted cfg :=
  exec_invariant (step cfg) (fun _ _ _ h hstep => h.step hstep) (start_accounted s) es

/-- A waiter goes on waiting until it is answered. -/
def Keeps (w : Id × Waiter) (a : Actor) : Prop := w ∈ a.waiters ∨ w.2.reply ∈ a.answered

lemma Keeps.step {w : Id × Waiter} {e : Event} (h : a.Keeps w) (hstep : step cfg a e = .ok a') : a'.Keeps w := by
  have hnext : (∀ x ∈ a.waiters, x ∈ a'.waiters ∨ x.2.reply ∈ a'.answered) ∧ a.answered ⊆ a'.answered := by
    rcases step_moves hstep with hmoves | hmoves
    · exact ⟨hmoves.waiters, answered_mono hmoves.answers⟩
    · exact ⟨hmoves.waiters, answered_mono hmoves.answers⟩
  rcases h with hwait | hdone
  · exact hnext.1 w hwait
  · exact .inr (hnext.2 hdone)

lemma answered_once {s : State} {es : List Event} (later rest : List Event) {w : Id × Waiter} {now : Nat}
    (hw : w ∈ (exec (step cfg) (start s) es).waiters) (hnow : w.2.expires ≤ now) :
    w.2.reply ∈ (exec (step cfg) (start s) (es ++ later ++ .tick now :: rest)).answered := by
  have hlater : (exec (step cfg) (start s) (es ++ later)).Keeps w := by
    rw [exec_append]
    exact exec_invariant (step cfg) (fun _ _ _ h hstep => Keeps.step h hstep) (.inl hw) later
  have htick : w.2.reply ∈ (advance (step cfg) (exec (step cfg) (start s) (es ++ later)) (.tick now)).answered := by
    have htick : step cfg (exec (step cfg) (start s) (es ++ later)) (.tick now) =
        .ok ((exec (step cfg) (start s) (es ++ later)).onTick cfg now) := rfl
    rcases hlater.step htick with hwait | hdone
    · exact absurd (onTick_waiters hwait) (not_lt.mpr hnow)
    · exact hdone
  rw [exec_append, exec_cons]
  exact exec_invariant (I := fun a => w.2.reply ∈ a.answered) (step cfg) (fun a e a' h hstep => by
    rcases step_moves hstep with hmoves | hmoves
    · exact answered_mono hmoves.answers h
    · exact answered_mono hmoves.answers h) htick rest

/-- In every run the ids, the bytes and the caps of the mempool are right, every submission is answered once or waits in
one place, and a submitter that waits is answered by the first tick after its deadline, if not before. -/
theorem mempool_exact (s : State) (es : List Event) :
    let a := exec (step cfg) (start s) es
    a.toPool.Exact cfg ∧
    (∀ r, a.answered.count r + a.pending.count r = if r < a.submitted then 1 else 0) ∧
    ∀ w ∈ a.waiters, ∀ later now rest, w.2.expires ≤ now →
      let b := exec (step cfg) (start s) (es ++ later ++ .tick now :: rest)
      b.answered.count w.2.reply = 1 ∧ w.2.reply ∉ b.pending := by
  obtain ⟨hexact, hheld⟩ := run_accounted cfg s es
  refine ⟨hexact, hheld, fun w hw later now rest hnow => ?_⟩
  have hdone := answered_once later rest hw hnow
  obtain ⟨-, hheld'⟩ := run_accounted cfg s (es ++ later ++ .tick now :: rest)
  have hone := hheld' w.2.reply
  have hpos := List.count_pos_iff.mpr hdone
  rw [Pool.held] at hone
  split_ifs at hone
  · refine ⟨by omega, fun hmem => ?_⟩
    have hpending := List.count_pos_iff.mpr hmem
    omega
  · omega

section Sample

def sampleConfig : Config where
  crypto := Links.sampleCrypto
  genesis := 77
  maxBlockTxs := 64
  mempoolTtl := 30000
  encodeTx tx := [tx.namespaceId]
  parseTx _ := .error "no transaction"
  encodeBlock block := [block.height]
  parseBlock _ := .error "no block"
  digest bytes := bytes.foldl (fun acc b => 256 * acc + b) 1
  rounds := 4

/-- A registration that waits in the mempool. -/
def sampleSubmission : List Event :=
  [.submit ⟨5, .register Links.sampleRegister⟩ 5000, .admissionDone 0 (.ok true), .admission 0 1000]

theorem mempool_exact_sample :
    let b := exec (step sampleConfig) (start Links.sampleState) (sampleSubmission ++ [] ++ .tick 6000 :: [])
    b.answered.count 0 = 1 ∧ 0 ∉ b.pending :=
  (mempool_exact Links.sampleState sampleSubmission).2.2 (261, ⟨0, 6000⟩) (by decide +kernel) [] 6000 [] (by decide)

end Sample

end Actor

end Peal.Consensus
