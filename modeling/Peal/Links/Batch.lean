import Peal.Links.Atomicity

namespace Peal.Links
open Peal.Fallible Peal.Methods

/-! # A batch is its members applied in turn -/

variable {c : Crypto}

namespace OpenLedger

variable {o s : OpenLedger}

/-- What a batch does with one envelope, screened against the state `before` the batch. -/
def member (c : Crypto) (before : OpenLedger) (passes : Nat × List Fr → Bool) (env : OpEnvelope)
    (fault : Fault) : Method Error OpenLedger Applied := do
  let found ← lift (screen c env before)
  applyMember c env found.2 (passes (found.1, Ledger.publicInput env found.2.com)) fault

section Slots

def candidateOf (c : Crypto) (o : OpenLedger) (m : OpEnvelope × Nat) : Option Candidate :=
  match screen c m.1 o with
  | .ok (proof, current) => some ⟨m.2, m.1, proof, current⟩
  | .error _ => none

def slotOf (c : Crypto) (o : OpenLedger) (env : OpEnvelope) : Option (Except Error Applied) :=
  match screen c env o with
  | .ok _ => none
  | .error e => some (.error e)

lemma set_next {α : Type} (filled : List α) (next : α) (rest : List α) (a : α) :
    (filled ++ next :: rest).set filled.length a = (filled ++ [a]) ++ rest := by
  rw [List.set_append_right _ _ (le_refl _), Nat.sub_self, List.set_cons_zero, List.append_assoc]
  rfl

lemma screenStep_foldl (envs : List OpEnvelope) (found : List Candidate) (filled : Slots) :
    (envs.zipIdx filled.length).foldl (screenStep c o) (found, filled ++ List.replicate envs.length none) =
      (found ++ (envs.zipIdx filled.length).filterMap (candidateOf c o),
        filled ++ envs.map (slotOf c o)) := by
  induction envs generalizing found filled with
  | nil => simp
  | cons env envs ih =>
    rw [List.zipIdx_cons, List.foldl_cons, List.length_cons, List.replicate_succ, List.filterMap_cons,
      List.map_cons]
    cases hs : screen c env o with
    | ok out =>
      have hnext := ih (found ++ [⟨filled.length, env, out.1, out.2⟩]) (filled ++ [none])
      rw [List.length_append, List.length_singleton] at hnext
      simp only [screenStep, candidateOf, slotOf, hs, List.append_assoc, List.singleton_append] at hnext ⊢
      exact hnext
    | error e =>
      have hnext := ih found (filled ++ [some (.error e)])
      rw [List.length_append, List.length_singleton] at hnext
      simp only [screenStep, candidateOf, slotOf, hs, set_next] at hnext ⊢
      rw [hnext, List.append_assoc]
      rfl

lemma screenAll_eq (envs : List OpEnvelope) :
    screenAll c o envs = (envs.zipIdx.filterMap (candidateOf c o), envs.map (slotOf c o)) :=
  screenStep_foldl envs [] []

variable (batchVerify : Nat → List (Nat × List Fr) → Bool)

/-- Whether a claim passes: together with all the others, or else alone. -/
def passes (c : Crypto) (o : OpenLedger) (coins : Nat) (envs : List OpEnvelope) (cl : Nat × List Fr) : Bool :=
  batchVerify coins ((screenAll c o envs).1.map claim) || c.verify .op cl.1 cl.2

lemma members_eq (coins : Nat) (envs : List OpEnvelope) :
    members c batchVerify coins envs o = (screenAll c o envs).1.map fun k =>
      (k, passes batchVerify c o coins envs (claim k)) := by
  unfold members validity passes
  dsimp only
  cases hall : batchVerify coins ((screenAll c o envs).1.map claim) with
  | true =>
    rw [if_pos rfl, List.length_map, ← List.map_const', ← List.map_prod_left_eq_zip]
    rfl
  | false =>
    rw [if_neg (by simp), List.map_map, ← List.map_prod_left_eq_zip]
    rfl

lemma memberStep_foldl (ok : Nat × List Fr → Bool) (faults : Nat → Fault) (envs : List OpEnvelope)
    (filled : List (Except Error Applied)) :
    (((envs.zipIdx filled.length).filterMap (candidateOf c o)).map fun k => (k, ok (claim k))).foldl
        (memberStep c faults) (filled.map some ++ envs.map (slotOf c o), s) =
      let rest := inTurn ((envs.zipIdx filled.length).map fun m => member c o ok m.1 (faults m.2)) s
      ((filled ++ rest.1).map some, rest.2) := by
  induction envs generalizing filled s with
  | nil => simp
  | cons env envs ih =>
    rw [List.zipIdx_cons, List.filterMap_cons, List.map_cons, List.map_cons, inTurn_cons]
    dsimp only
    cases hs : screen c env o with
    | ok out =>
      have hcall : member c o ok env (faults filled.length) = applyMember c env out.2
          (ok (out.1, Ledger.publicInput env out.2.com)) (faults filled.length) := by
        unfold member
        rw [hs]
        rfl
      have hslot : slotOf c o env = none := by rw [slotOf, hs]
      have hcandidate : candidateOf c o (env, filled.length) = some ⟨filled.length, env, out.1, out.2⟩ := by
        rw [candidateOf, hs]
      generalize hres : outcome (applyMember c env out.2 (ok (out.1, Ledger.publicInput env out.2.com))
        (faults filled.length)) s = res
      have hnext := ih (s := res.2) (filled ++ [res.1])
      have hset := set_next (filled.map some) none (envs.map (slotOf c o)) (some res.1)
      rw [List.length_map] at hset
      rw [List.length_append, List.length_singleton, List.map_append, List.map_singleton] at hnext
      simp only [hcandidate, hslot, hcall, List.map_cons, List.foldl_cons]
      rw [memberStep]
      have hclaim : claim ⟨filled.length, env, out.1, out.2⟩ = (out.1, Ledger.publicInput env out.2.com) := rfl
      simp only [hclaim, hres, hset]
      refine hnext.trans ?_
      dsimp only
      rw [List.append_assoc]
      rfl
    | error e =>
      have hcall : outcome (member c o ok env (faults filled.length)) s = (.error e, s) := by
        unfold member
        rw [hs]
        rfl
      have hslot : slotOf c o env = some (.error e) := by rw [slotOf, hs]
      have hcandidate : candidateOf c o (env, filled.length) = none := by rw [candidateOf, hs]
      have hnext := ih (s := s) (filled ++ [.error e])
      rw [List.length_append, List.length_singleton, List.map_append, List.map_singleton,
        List.append_assoc] at hnext
      simp only [hcandidate, hslot, hcall]
      rw [show (some (Except.error e) :: envs.map (slotOf c o)) = [some (Except.error e)] ++ envs.map (slotOf c o)
        from rfl]
      refine hnext.trans ?_
      dsimp only
      rw [List.append_assoc]
      rfl

lemma mapM_some {α : Type} (as : List α) : (as.map some).mapM id = some as := by
  induction as with
  | nil => rfl
  | cons a as ih => rw [List.map_cons, List.mapM_cons, ih]; rfl

/-- A batch fills every slot, with what its members come to in turn. -/
theorem applyBatch_eq (coins : Nat) (envs : List OpEnvelope) (faults : Nat → Fault) :
    applyBatch c batchVerify coins envs faults o =
      let done := inTurn (envs.zipIdx.map fun m =>
        member c o (passes batchVerify c o coins envs) m.1 (faults m.2)) o
      (some done.1, done.2) := by
  have hloop := memberStep_foldl (c := c) (o := o) (s := o) (passes batchVerify c o coins envs) faults envs []
  rw [List.map_nil, List.nil_append, List.length_nil] at hloop
  have hslots : (screenAll c o envs).2 = envs.map (slotOf c o) := congrArg Prod.snd (screenAll_eq envs)
  have hmembers : members c batchVerify coins envs o = ((envs.zipIdx).filterMap (candidateOf c o)).map fun k =>
      (k, passes batchVerify c o coins envs (claim k)) := by
    rw [members_eq, show (screenAll c o envs).1 = _ from congrArg Prod.fst (screenAll_eq envs)]
  unfold applyBatch
  rw [hmembers, hslots, hloop]
  dsimp only
  rw [List.nil_append, mapM_some]

end Slots

lemma screen_eq_ok {env : OpEnvelope} {proof : Nat} {current : AccountView} :
    screen c env o = .ok (proof, current) ↔ admitOp c env o = .ok proof ∧
      o.account env.account = some current ∧ current.com = env.com ∧ o.rootIsRecent env.root = true := by
  unfold screen
  simp only [bind_eq_ok, pure_eq_ok, expect_eq_ok, require_eq_ok, Prod.mk.injEq]
  constructor
  · rintro ⟨p, hp, view, hview, -, hcom, -, hrecent, rfl, rfl⟩
    exact ⟨hp, hview, hcom, hrecent⟩
  · rintro ⟨hp, hview, hcom, hrecent⟩
    exact ⟨proof, hp, current, hview, (), hcom, (), hrecent, rfl, rfl⟩

lemma admitOp_congr (h : s.cfg = o.cfg) (env : OpEnvelope) : admitOp c env s = admitOp c env o := by
  unfold admitOp
  rw [h]

lemma Ledger.applyVerified_ok {l l' : Ledger} {env : OpEnvelope} {current : AccountView} {r : Applied}
    (h : l.applyVerified c env current = .ok (l', r)) :
    l'.cfg = l.cfg ∧ l.rootIsRecent env.root = true := by
  unfold Ledger.applyVerified at h
  simp only [bind_eq_ok, require_eq_ok, expect_eq_ok, pure_eq_ok, Prod.mk.injEq] at h
  obtain ⟨-, -, -, -, -, hrecent, -, -, m, hm, rfl, -⟩ := h
  obtain ⟨t, -, rfl⟩ := Ledger.logReceipt_ok hm
  exact ⟨rfl, hrecent⟩

/-- The states a batch passes through. -/
def During (c : Crypto) (o s : OpenLedger) : Prop := Sound c s ∧ s.cfg = o.cfg

lemma member_spec (h : During c o s) (ok : Nat × List Fr → Bool) (env : OpEnvelope) (fault : Fault) :
    Meets (member c o ok env fault) s
      (fun r s' => During c o s' ∧ ∃ found now, screen c env o = .ok found ∧
        ok (found.1, Ledger.publicInput env found.2.com) = true ∧ s.view.account env.account = some now ∧
        now.com = found.2.com ∧ s.view.applyVerified c env now = .ok (s'.view, r))
      (fun _ s' => s' = s) := by
  unfold member
  simp only [meets_bind, meets_lift, implies_true, and_true]
  intro found hfound
  apply (applyMember_spec h.1 _ _ _ fault).mono
  · rintro r s' ⟨hsound, hok, now, hnow, hcom, heq⟩
    exact ⟨⟨hsound, (Ledger.applyVerified_ok heq).1.trans h.2⟩, found, now, hfound, hok, hnow, hcom, heq⟩
  · exact fun _ _ hsame => hsame

lemma apply_spec (h : Sound c s) (env : OpEnvelope) (fault : Fault) :
    Meets (apply c env fault) s
      (fun _ _ => ∃ proof now, screen c env s = .ok (proof, now) ∧
        c.verify .op proof (Ledger.publicInput env now.com) = true)
      (fun _ s' => s' = s) := by
  apply (apply_simulates h env fault).mono
  · rintro r s' ⟨-, heq⟩
    rw [apply_eq h] at heq
    simp only [bind_eq_ok, require_eq_ok] at heq
    obtain ⟨found, hfound, -, hverify, -⟩ := heq
    exact ⟨found.1, found.2, hfound, hverify⟩
  · exact fun _ _ hout => hout.1

lemma applyMember_apply {env : OpEnvelope} {proof : Nat} {current now : AccountView} (fault : Fault)
    (hnow : s.account env.account = some now) (hcom : now.com = current.com)
    (hscreen : screen c env s = .ok (proof, now))
    (hverify : c.verify .op proof (Ledger.publicInput env now.com) = true) :
    outcome (applyMember c env current true fault) s = outcome (apply c env fault) s := by
  have hmember : outcome (applyMember c env current true fault) s =
      outcome (applyVerified c env now fault) s := by
    unfold applyMember
    rw [outcome_bind_ok (a := ()) (u := s), outcome_bind_ok outcome_get, outcome_bind_ok (a := now) (u := s),
      outcome_bind_ok (a := ()) (u := s)]
    · rw [outcome_lift, require_eq_ok.mpr hcom]
    · rw [outcome_lift, hnow]
      rfl
    · rw [outcome_lift]
      rfl
  rw [hmember]
  unfold apply
  rw [outcome_bind_ok outcome_get, outcome_bind_ok (a := (proof, now)) (u := s)]
  · dsimp only
    rw [outcome_bind_ok (a := ()) (u := s)]
    rw [outcome_lift, require_eq_ok.mpr hverify]
  · rw [outcome_lift, hscreen]

def verifies (c : Crypto) (cl : Nat × List Fr) : Bool := c.verify .op cl.1 cl.2

lemma member_same (h : During c o s) {env : OpEnvelope} {found : Nat × AccountView}
    (hfound : screen c env o = .ok found) (fault : Fault) :
    Same s (member c o (verifies c) env fault) (apply c env fault) := by
  have hmember := outcome_of_meets (member_spec h (verifies c) env fault)
  have happly := outcome_of_meets (apply_spec h.1 env fault)
  obtain ⟨hchecked, -, hcom, -⟩ := screen_eq_ok.mp hfound
  have hcall : member c o (verifies c) env fault = applyMember c env found.2
      (verifies c (found.1, Ledger.publicInput env found.2.com)) fault := by
    unfold member
    rw [hfound]
    rfl
  refine same_of_ok_iff hmember.2 happly.2 fun r s' => ⟨fun hok => ?_, fun hok => ?_⟩
  · obtain ⟨-, found', now, hfound', hverify, hnow, hsame, heq⟩ := hmember.1 r s' hok
    obtain rfl := Except.ok.inj (hfound.symm.trans hfound')
    rw [← h.1.account] at hnow
    have hscreen : screen c env s = .ok (found.1, now) :=
      screen_eq_ok.mpr ⟨(admitOp_congr h.2 env).trans hchecked, hnow, hsame.trans hcom, (Ledger.applyVerified_ok heq).2⟩
    rw [hcall, hverify] at hok
    rw [← applyMember_apply fault hnow hsame hscreen (by rw [hsame]; exact hverify)]
    exact hok
  · obtain ⟨proof, now, hscreen, hverify⟩ := happly.1 r s' hok
    obtain ⟨hchecked', hnow, hcom', -⟩ := screen_eq_ok.mp hscreen
    have hsame : now.com = found.2.com := hcom'.trans hcom.symm
    obtain rfl : proof = found.1 :=
      Except.ok.inj (hchecked'.symm.trans ((admitOp_congr h.2 env).trans hchecked))
    rw [hcall, show verifies c (found.1, Ledger.publicInput env found.2.com) = true by rw [← hsame]; exact hverify,
      applyMember_apply fault hnow hsame hscreen hverify]
    exact hok

section Steps

variable {batchVerify : Nat → List (Nat × List Fr) → Bool}

/-- What the batch check accepts together verifies one by one. -/
def Trusted (c : Crypto) (batchVerify : Nat → List (Nat × List Fr) → Bool) : Prop :=
  ∀ coins claims, batchVerify coins claims = true → ∀ cl ∈ claims, verifies c cl = true

lemma claim_mem {envs : List OpEnvelope} {m : OpEnvelope × Nat} (hm : m ∈ envs.zipIdx)
    {found : Nat × AccountView} (hfound : screen c m.1 o = .ok found) :
    (found.1, Ledger.publicInput m.1 found.2.com) ∈ (screenAll c o envs).1.map claim := by
  refine List.mem_map.mpr ⟨⟨m.2, m.1, found.1, found.2⟩, ?_, rfl⟩
  rw [screenAll_eq, List.mem_filterMap]
  exact ⟨m, hm, by rw [candidateOf, hfound]⟩

lemma passes_verifies (h : Trusted c batchVerify) (coins : Nat) {envs : List OpEnvelope} {m : OpEnvelope × Nat}
    (hm : m ∈ envs.zipIdx) {found : Nat × AccountView} (hfound : screen c m.1 o = .ok found)
    (hpass : passes batchVerify c o coins envs (found.1, Ledger.publicInput m.1 found.2.com) = true) :
    verifies c (found.1, Ledger.publicInput m.1 found.2.com) = true := by
  unfold passes at hpass
  rcases Bool.or_eq_true_iff.mp hpass with hall | halone
  · exact h _ _ hall _ (claim_mem hm hfound)
  · exact halone

lemma member_transition (h : During c o s) {ok : Nat × List Fr → Bool} {env : OpEnvelope} {fault : Fault}
    (hok : ∀ found, screen c env o = .ok found → ok (found.1, Ledger.publicInput env found.2.com) = true →
      verifies c (found.1, Ledger.publicInput env found.2.com) = true) {r : Applied} {s' : OpenLedger}
    (hs : outcome (member c o ok env fault) s = (.ok r, s')) :
    During c o s' ∧ s.view.apply c env = .ok (s'.view, r) := by
  obtain ⟨hduring, found, now, hfound, hpass, hnow, hsame, heq⟩ :=
    (outcome_of_meets (member_spec h ok env fault)).1 r s' hs
  obtain ⟨hchecked, -, hcom, -⟩ := screen_eq_ok.mp hfound
  have hscreen : screen c env s = .ok (found.1, now) := by
    refine screen_eq_ok.mpr ⟨(admitOp_congr h.2 env).trans hchecked, ?_, hsame.trans hcom,
      (Ledger.applyVerified_ok heq).2⟩
    rw [h.1.account]
    exact hnow
  refine ⟨hduring, ?_⟩
  rw [apply_eq h.1, hscreen]
  refine bind_eq_ok.mpr ⟨_, rfl, bind_eq_ok.mpr ⟨(), ?_, heq⟩⟩
  rw [require_eq_ok, hsame]
  exact hok found hfound hpass

variable {P : OpenLedger → Prop}

lemma perform_induct (htrust : Trusted c batchVerify)
    (hstep : ∀ s s' envelope r, Sound c s → Sound c s' → s.view.transition c envelope = .ok (s'.view, r) →
      P s → P s') (h : Sound c o) (ho : P o) (call : Call) : P (perform c batchVerify o call) := by
  cases call with
  | register env fault =>
    exact outcome_induct (register_simulates h env fault).refused ho
      fun r o' hpost => hstep o o' (.register env) r h hpost.1 hpost.2 ho
  | apply env fault =>
    exact outcome_induct (apply_simulates h env fault).refused ho
      fun r o' hpost => hstep o o' (.op env) r h hpost.1 hpost.2 ho
  | mint env fault =>
    exact outcome_induct (mint_simulates h env fault).refused ho
      fun r o' hpost => hstep o o' (.mint env) r h hpost.1 hpost.2 ho
  | applyBatch coins envs faults =>
    have hbatch : perform c batchVerify o (.applyBatch coins envs faults) = (inTurn (envs.zipIdx.map fun m =>
        member c o (passes batchVerify c o coins envs) m.1 (faults m.2)) o).2 :=
      congrArg Prod.snd (applyBatch_eq batchVerify coins envs faults)
    rw [hbatch]
    refine (inTurn_keeps (I := fun s => During c o s ∧ P s) ?_ ⟨⟨h, rfl⟩, ho⟩).2
    rintro m hm s ⟨hs, hps⟩
    refine ⟨outcome_induct (member_spec hs _ _ _) hs fun _ _ hpost => hpost.1, ?_⟩
    have hrefused := (outcome_of_meets (member_spec hs (passes batchVerify c o coins envs) m.1 (faults m.2))).2
    cases hres : outcome (member c o (passes batchVerify c o coins envs) m.1 (faults m.2)) s with
    | mk result s' =>
      cases result with
      | error e => exact hrefused e s' hres ▸ hps
      | ok r =>
        obtain ⟨hduring, htransition⟩ := member_transition hs
          (fun found hfound => passes_verifies htrust coins hm hfound) hres
        exact hstep s s' (.op m.1) r hs.1 hduring.1 htransition hps

/-- What opening an empty store establishes and every accepted envelope keeps holds after every run. -/
theorem run_induct (htrust : Trusted c batchVerify)
    (hstep : ∀ s s' envelope r, Sound c s → Sound c s' → s.view.transition c envelope = .ok (s'.view, r) →
      P s → P s') (h : Sound c o) (ho : P o) (calls : List Call) : P (run c batchVerify o calls) := by
  induction calls generalizing o with
  | nil => exact ho
  | cons call calls ih =>
    exact ih (sound_perform batchVerify h call) (perform_induct htrust hstep h ho call)

end Steps

section Refinement

variable {batchVerify : Nat → List (Nat × List Fr) → Bool}

/-- The batch check accepts exactly the lists of claims that verify one by one. -/
def Exact (c : Crypto) (batchVerify : Nat → List (Nat × List Fr) → Bool) : Prop :=
  ∀ coins claims, batchVerify coins claims = true ↔ ∀ cl ∈ claims, verifies c cl = true

lemma passes_eq (h : Exact c batchVerify) (coins : Nat) {envs : List OpEnvelope} {env : OpEnvelope}
    (henv : env ∈ envs) {found : Nat × AccountView} (hfound : screen c env o = .ok found) :
    passes batchVerify c o coins envs (found.1, Ledger.publicInput env found.2.com) =
      verifies c (found.1, Ledger.publicInput env found.2.com) := by
  unfold passes
  cases hall : batchVerify coins ((screenAll c o envs).1.map claim) with
  | false => rfl
  | true =>
    rw [Bool.true_or]
    obtain ⟨i, hi, hget⟩ := List.mem_iff_getElem.mp henv
    have hm : (env, i) ∈ envs.zipIdx := by
      rw [List.mk_mem_zipIdx_iff_getElem?, ← hget]
      exact List.getElem?_eq_getElem hi
    exact ((h _ _).mp hall _ (claim_mem hm hfound)).symm

lemma applyBatch_verified (h : Exact c batchVerify) (coins : Nat) (envs : List OpEnvelope) :
    applyBatch c batchVerify coins envs (fun _ => none) o =
      let done := inTurn (envs.map fun env => member c o (verifies c) env none) o
      (some done.1, done.2) := by
  have hmap : (envs.zipIdx.map fun m => member c o (passes batchVerify c o coins envs) m.1 none) =
      envs.map fun env => member c o (verifies c) env none := by
    have hfst : envs = envs.zipIdx.map Prod.fst := (List.zipIdx_map_fst 0 envs).symm
    conv_rhs => rw [hfst, List.map_map]
    apply List.map_congr_left
    intro m hm
    have henv : m.1 ∈ envs := List.fst_mem_of_mem_zipIdx hm
    unfold member
    cases hs : screen c m.1 o with
    | error e => rw [Function.comp_apply, hs]; rfl
    | ok found =>
      have hpass := passes_eq h coins henv hs
      rw [Function.comp_apply, hs]
      show applyMember c m.1 found.2 _ none = applyMember c m.1 found.2 _ none
      rw [hpass]
  rw [applyBatch_eq, hmap]

/-- The envelope is well formed, and its proof verifies against the commitment it spends. -/
def Proved (c : Crypto) (o : OpenLedger) (env : OpEnvelope) : Prop :=
  ∃ proof, admitOp c env o = .ok proof ∧ verifies c (proof, Ledger.publicInput env env.com) = true

/-- The envelope spends the commitment its account holds. -/
def Spends (o : OpenLedger) (env : OpEnvelope) : Prop :=
  ∃ view, o.account env.account = some view ∧ view.com = env.com

/-- The envelope is well formed, spends the commitment its account holds and reveals a recent root. -/
def fits (c : Crypto) (o : OpenLedger) (env : OpEnvelope) : Bool := (screen c env o).toOption.isSome

lemma member_refused {env : OpEnvelope} (h : ¬Proved c o env ∨ ¬Spends o env) (s : OpenLedger) :
    ∃ e, outcome (member c o (verifies c) env none) s = (.error e, s) := by
  cases hs : screen c env o with
  | error e =>
    refine ⟨e, ?_⟩
    unfold member
    rw [hs]
    rfl
  | ok found =>
    obtain ⟨hchecked, hview, hcom, -⟩ := screen_eq_ok.mp hs
    have hproof : verifies c (found.1, Ledger.publicInput env found.2.com) = false := by
      rcases h with hunproved | hunspent
      · rw [← Bool.not_eq_true, hcom]
        exact fun hv => hunproved ⟨found.1, hchecked, hv⟩
      · exact absurd ⟨found.2, hview, hcom⟩ hunspent
    have hcall : member c o (verifies c) env none = applyMember c env found.2
        (verifies c (found.1, Ledger.publicInput env found.2.com)) none := by
      unfold member
      rw [hs]
      rfl
    rw [hcall, hproof]
    exact ⟨.invalidProof, rfl⟩

lemma member_unfit {env : OpEnvelope} (h : fits c o env = false) (s : OpenLedger) :
    (outcome (member c o (verifies c) env none) s).2 = s := by
  unfold fits at h
  cases hs : screen c env o with
  | ok found =>
    rw [hs] at h
    cases h
  | error e =>
    unfold member
    rw [hs]
    rfl

variable (c) in
/-- A batch gives one result for each envelope; applying the accepted ones one by one does the same; an envelope
whose proof is invalid, or that does not spend the commitment its account held before the batch, is rejected and
might as well not be there; and of the envelopes that fit the state before the batch, it accepts the ones that
applying those one by one would. -/
theorem batch_refines (h : Exact c batchVerify) (inst : Instance) (cfg : LedgerConfig) (calls : List Call)
    (coins : Nat) (envs : List OpEnvelope) :
    let o := run c batchVerify (fresh c inst cfg) calls
    let out := applyBatch c batchVerify coins envs (fun _ => none) o
    ∃ rs, out.1 = some rs ∧ rs.length = envs.length ∧
      inTurn ((accepted envs rs).map fun t => apply c t.1 none) o =
        ((accepted envs rs).map fun t => .ok t.2, out.2) ∧
      (∀ front env back, envs = front ++ env :: back → ¬Proved c o env ∨ ¬Spends o env →
        ∃ before e after, rs = before ++ .error e :: after ∧ before.length = front.length ∧
          applyBatch c batchVerify coins (front ++ back) (fun _ => none) o = (some (before ++ after), out.2)) ∧
      (inTurn ((envs.filter (fits c o)).map fun env => apply c env none) o).2 = out.2 ∧
      (inTurn ((envs.filter (fits c o)).map fun env => apply c env none) o).1.map Except.toOption =
        ((envs.zip rs).filter fun b => fits c o b.1).map fun b => b.2.toOption := by
  intro o out
  have hstart : During c o o := ⟨sound_run batchVerify (sound_fresh inst cfg) calls, rfl⟩
  have hout : out = (some (inTurn (envs.map fun env => member c o (verifies c) env none) o).1,
      (inTurn (envs.map fun env => member c o (verifies c) env none) o).2) := applyBatch_verified h coins envs
  have hspec : ∀ env s, During c o s → (∀ r s', outcome (member c o (verifies c) env none) s = (.ok r, s') →
      During c o s' ∧ ∃ found, screen c env o = .ok found) ∧
      ∀ e s', outcome (member c o (verifies c) env none) s = (.error e, s') → s' = s := by
    intro env s hs
    obtain ⟨hok, hrefused⟩ := outcome_of_meets (member_spec hs (verifies c) env none)
    refine ⟨fun r s' hr => ?_, hrefused⟩
    obtain ⟨hduring, found, -, hfound, -⟩ := hok r s' hr
    exact ⟨hduring, found, hfound⟩
  have hkeep : ∀ env s, During c o s → During c o (outcome (member c o (verifies c) env none) s).2 := by
    intro env s hs
    exact outcome_induct (member_spec hs (verifies c) env none) hs fun _ _ hpost => hpost.1
  refine ⟨_, congrArg Prod.fst hout, ?_, ?_, ?_, ?_⟩
  · rw [length_inTurn, List.length_map]
  · rw [hout]
    refine inTurn_accepted (I := During c o) (g := fun env => apply c env none) hkeep
      (fun env s e s' hs => (hspec env s hs).2 e s') ?_ hstart envs
    intro env s r s' hs hok
    obtain ⟨-, found, hfound⟩ := (hspec env s hs).1 r s' hok
    obtain ⟨hstate, hresult⟩ := member_same hs hfound none
    rw [hok] at hstate hresult
    cases happly : outcome (apply c env none) s with
    | mk result t =>
      rw [happly] at hstate hresult
      cases result with
      | error e => cases hresult
      | ok r' =>
        obtain rfl := Option.some.inj hresult
        rw [show s' = t from hstate]
  · rintro front env back rfl hunfit
    obtain ⟨e, he⟩ := member_refused hunfit
      (inTurn (front.map fun env => member c o (verifies c) env none) o).2
    refine ⟨(inTurn (front.map fun env => member c o (verifies c) env none) o).1, e,
      (inTurn (back.map fun env => member c o (verifies c) env none)
        (inTurn (front.map fun env => member c o (verifies c) env none) o).2).1, ?_, ?_, ?_⟩
    · rw [List.map_append, List.map_cons, inTurn_append, inTurn_cons, he]
    · rw [length_inTurn, List.length_map]
    · rw [applyBatch_verified h coins (front ++ back), hout, List.map_append, List.map_append, List.map_cons,
        inTurn_append, inTurn_append, inTurn_cons, he]
  · rw [hout]
    refine inTurn_filter (I := During c o) (g := fun env => apply c env none) (fits c o) hkeep (fun env s _ hunfit => member_unfit hunfit s) ?_ hstart
      envs
    intro env s hs hfit
    cases hfound : screen c env o with
    | ok found => exact member_same hs hfound none
    | error e =>
      rw [fits, hfound] at hfit
      cases hfit

end Refinement

section Sample

def raceConfig : LedgerConfig := ⟨5, 9, 3⟩

def raceCalls : List Call := [.register ⟨5, 7, 3, 7⟩ none, .register ⟨5, 8, 3, 8⟩ none, .mint oneMint none]

/-- Two accounts at their first commitment, and a deposit. -/
def raceLedger : OpenLedger :=
  run sampleCrypto verifyEach (fresh sampleCrypto sampleInstance raceConfig) raceCalls

def raceOp (pubkey com comNew root : Fr) : OpEnvelope where
  namespaceId := 5
  circuitId := 9
  account := accountId sampleCrypto 5 pubkey
  com := com
  comNew := comNew
  receipt := 8
  root := root
  proof := sampleProof
  pubkey := pubkey
  signature := pubkey

/-- Two operations of one account, the second made on top of the first, then two of another made from the same
commitment, the first of them against the older root. -/
def raceOps : List OpEnvelope :=
  let root := raceLedger.recent.getD 1 0
  [raceOp 7 oneCommitment 99 root, raceOp 7 99 98 root, raceOp 8 oneCommitment 97 (raceLedger.recent.getD 0 0),
    raceOp 8 oneCommitment 96 root]

lemma verifyEach_exact : Exact sampleCrypto verifyEach := by
  intro coins claims
  unfold verifyEach verifies
  exact List.all_eq_true

/-- The fourth operation is accepted alone, and accepted where the four are applied one by one; the batch rejects
it, because it accepted the third. -/
theorem batch_rejects_sequential :
    Exact sampleCrypto verifyEach ∧
    ((inTurn (raceOps.map fun env => apply sampleCrypto env none) raceLedger).1.map fun r => r.toOption.isSome) =
      [true, true, false, true] ∧
    (applyBatch sampleCrypto verifyEach 0 (raceOps.drop 3) (fun _ => none) raceLedger).1.map
      (fun rs => rs.map fun r => r.toOption.isSome) = some [true] ∧
    (applyBatch sampleCrypto verifyEach 0 raceOps (fun _ => none) raceLedger).1.map
      (fun rs => rs.map fun r => r.toOption.isSome) = some [true, false, true, false] :=
  ⟨verifyEach_exact, by decide +kernel, by decide +kernel, by decide +kernel⟩

theorem batch_refines_sample :
    let out := applyBatch sampleCrypto verifyEach 0 raceOps (fun _ => none) raceLedger
    ∃ rs, out.1 = some rs ∧ rs.length = 4 ∧ ∃ before e after, rs = before ++ .error e :: after ∧
      before.length = 1 ∧
      applyBatch sampleCrypto verifyEach 0 (raceOps.take 1 ++ raceOps.drop 2) (fun _ => none) raceLedger =
        (some (before ++ after), out.2) := by
  obtain ⟨rs, hrs, hlength, -, hrejected, -⟩ :=
    batch_refines sampleCrypto verifyEach_exact sampleInstance raceConfig raceCalls 0 raceOps
  refine ⟨rs, hrs, hlength, ?_⟩
  have hunspent : ¬Spends raceLedger (raceOp 7 99 98 (raceLedger.recent.getD 1 0)) := by
    have hcom : (raceLedger.account (accountId sampleCrypto 5 7)).map (·.com) = some oneCommitment := by
      decide +kernel
    rintro ⟨view, hview, hspends⟩
    rw [show (raceOp 7 99 98 (raceLedger.recent.getD 1 0)).account = accountId sampleCrypto 5 7 from rfl] at hview
    rw [hview, Option.map_some, hspends] at hcom
    exact absurd hcom (by decide +kernel)
  exact hrejected (raceOps.take 1) _ (raceOps.drop 2) rfl (.inr hunspent)

end Sample

end OpenLedger

end Peal.Links
