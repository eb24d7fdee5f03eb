import Peal.Links.Certificates

namespace Peal.Links
open Peal.Fallible Peal.Runs Peal.Interleaving

/-! # Which token a namespace's withdrawals are of -/

variable {d : Deployment} {n : NodeId} {token : Namespace → Option Nat}

/-- A text that spells an address spells that of the namespace's token. -/
def Routed (token : Namespace → Option Nat) (namespaceId : Namespace) (text : Text) : Prop :=
  ∀ t, wordAddress text = .ok t → token namespaceId = some t

def NodeConfig.Follows (token : Namespace → Option Nat) (conf : NodeConfig) : Prop :=
  ∀ namespaceId ns, conf.namespaces namespaceId = some ns → Routed token namespaceId (toLowercase ns.tokenAddress)

/-- A step that leaves the configurations, the envelopes and the chain alone, and signs only messages of their
namespaces' tokens. -/
structure Stamps (token : Namespace → Option Nat) (update : Outside → Network → Network) : Prop where
  conf : ∀ w s m, ((update w s).nodes m).conf = (s.nodes m).conf
  finalized : ∀ w s, (update w s).finalized = s.finalized
  chain : ∀ w s, (update w s).chain = s.chain
  signed : ∀ w s, ∀ x ∈ (update w s).signed, x ∈ s.signed ∨ Routed token x.claim.namespaceId x.message.token

section Steps

lemma conf_setNode {s : Network} {node : Node} (h : node.conf = (s.nodes n).conf) (m : NodeId) :
    ((s.setNode n node).nodes m).conf = (s.nodes m).conf := by
  by_cases hm : m = n
  · rw [hm, Network.setNode_self, h]
  · rw [Network.setNode_of_ne hm]

lemma stamps_same {update : Outside → Network → Network}
    (h : ∀ w s, (∀ m, ((update w s).nodes m).conf = (s.nodes m).conf) ∧ (update w s).finalized = s.finalized ∧
      (update w s).chain = s.chain ∧ (update w s).signed = s.signed) : Stamps token update where
  conf w s := (h w s).1
  finalized w s := (h w s).2.1
  chain w s := (h w s).2.2.1
  signed w s _ hx := .inl ((h w s).2.2.2 ▸ hx)

lemma stamps_read {ε α : Type} {g : Outside → Network → Except ε α × Network} (h : ∀ w s, (g w s).2 = s) :
    Every (Stamps token) (Request.step g).run :=
  every_step (stamps_same fun w s => ⟨fun m => by rw [h w s], by rw [h w s], by rw [h w s], by rw [h w s]⟩)

lemma stamps_policy (namespaceId : Namespace) (claim : WithdrawalClaim) :
    Every (Stamps token) (SignerPolicy.check d n namespaceId claim).run := by
  unfold SignerPolicy.check
  refine every_checked fun _ => every_checked fun _ => every_request_bind (stamps_read fun _ _ => rfl) fun _ => ?_
  exact every_checked fun _ => every_request_bind (stamps_read fun _ _ => rfl) fun _ => every_checked fun _ => trivial

lemma stamps_attest {namespaceId : Namespace} {position epoch digest : Nat} :
    Every (Stamps token) (attest n namespaceId position epoch digest).run := by
  refine every_step (stamps_same fun w s => ?_)
  dsimp only
  cases w.store with
  | error e => exact ⟨fun _ => rfl, rfl, rfl, rfl⟩
  | ok u =>
    dsimp only
    split
    · split_ifs <;> exact ⟨fun _ => rfl, rfl, rfl, rfl⟩
    · exact ⟨conf_setNode rfl, rfl, rfl, rfl⟩

lemma stamps_signDigest {signer : Signer} {claim : WithdrawalClaim} {message : WithdrawalMessage} {digest : Nat}
    (h : Routed token claim.namespaceId message.token) :
    Every (Stamps token) (signDigest d n signer claim message digest).run := by
  refine every_step ⟨fun w s m => ?_, fun w s => ?_, fun w s => ?_, fun w s x hx => ?_⟩
  · cases d.signPrehash signer.key digest <;> rfl
  · cases d.signPrehash signer.key digest <;> rfl
  · cases d.signPrehash signer.key digest <;> rfl
  · cases hsign : d.signPrehash signer.key digest with
    | error e =>
      rw [hsign] at hx
      exact .inl hx
    | ok signature =>
      rw [hsign] at hx
      rcases List.mem_append.mp hx with hold | hnew
      · exact .inl hold
      · rw [List.mem_singleton.mp hnew]
        exact .inr h

lemma stamps_gatherRound {digest threshold : Nat} {members : List Nat} {collected : List (Nat × Signature)} :
    Every (Stamps token) (gatherRound d digest members threshold collected).run := by
  unfold gatherRound
  split_ifs
  · trivial
  · exact stamps_read fun _ _ => rfl

lemma stamps_certify {conf : NodeConfig} {committee : Committee} {claim : WithdrawalClaim}
    {message : WithdrawalMessage} {digest : Nat} (h : Routed token claim.namespaceId message.token) :
    Every (Stamps token) (committee.certify d n conf claim message digest).run := by
  unfold Committee.certify
  refine every_request_bind (every_outcome stamps_attest) fun _ => ?_
  cases committee with
  | fixture signers threshold =>
    exact every_mapM fun signer _ => every_request_bind (every_outcome (stamps_signDigest h)) fun _ => trivial
  | distributed localSigner members threshold =>
    refine every_checked fun _ => every_request_bind (every_outcome (stamps_signDigest h)) fun _ => ?_
    refine every_request_bind stamps_gatherRound fun _ => every_request_bind stamps_gatherRound fun _ => ?_
    exact every_checked fun _ => trivial

lemma stamps_replaceSettled {claim : WithdrawalClaim} {message : WithdrawalMessage} {signatures : List Signature} :
    Every (Stamps token) (replaceSettled n claim message signatures).run := by
  refine every_step (stamps_same fun w s => ?_)
  unfold recertified
  cases w.store with
  | error e => exact ⟨fun _ => rfl, rfl, rfl, rfl⟩
  | ok u => exact ⟨conf_setNode rfl, rfl, rfl, rfl⟩

lemma stamps_insertSettled {claim : WithdrawalClaim} {message : WithdrawalMessage} {signatures : List Signature} :
    Every (Stamps token) (insertSettled n claim message signatures).run := by
  refine every_step (stamps_same fun w s => ?_)
  dsimp only
  cases w.store with
  | error e => exact ⟨fun _ => rfl, rfl, rfl, rfl⟩
  | ok u =>
    dsimp only
    split_ifs
    · exact ⟨fun _ => rfl, rfl, rfl, rfl⟩
    · exact ⟨conf_setNode rfl, rfl, rfl, rfl⟩

lemma stamps_certifyClaim {conf : NodeConfig} {ns : NamespaceConfig} {committee : Committee} {claim : WithdrawalClaim}
    {epoch : Nat} {recertify : Bool} (h : Routed token claim.namespaceId (toLowercase ns.tokenAddress)) :
    Every (Stamps token) (certifyClaim d n conf ns committee claim epoch recertify).run := by
  unfold certifyClaim
  refine every_request_bind (stamps_policy _ claim) fun _ => every_checked fun _ => ?_
  refine every_request_bind (stamps_certify h) fun signed => ?_
  cases recertify with
  | true => exact every_request_bind stamps_replaceSettled fun _ => trivial
  | false => exact every_request_bind stamps_insertSettled fun _ => trivial

lemma stamps_settle {conf : NodeConfig} {claim : WithdrawalClaim} (h : conf.Follows token) :
    Every (Stamps token) (settle d n conf claim).run := by
  unfold settle
  refine every_passed fun ns hns => every_checked fun _ => every_checked fun committee => ?_
  have hrouted := h _ ns (expect_eq_ok.mp hns)
  refine every_request_bind (every_outcome (stamps_read fun _ _ => rfl)) fun epoch => ?_
  have hstored : Every (Stamps token) (storedWithdrawal n claim).run := by
    refine stamps_read fun w s => ?_
    cases w.store <;> rfl
  refine every_request_bind hstored fun row => ?_
  cases row with
  | none => exact stamps_certifyClaim hrouted
  | some row =>
    dsimp only
    split_ifs
    · exact every_checked fun _ => trivial
    · exact stamps_certifyClaim hrouted

lemma stamps_checkPatiently (claim : WithdrawalClaim) (attempts : Nat) :
    Every (Stamps token) (checkPatiently d n claim attempts).run := by
  induction attempts with
  | zero => exact every_outcome (stamps_policy _ claim)
  | succ attempts ih =>
    unfold checkPatiently
    refine every_request_bind (every_outcome (stamps_policy _ claim)) fun r => ?_
    cases r with
    | ok u => trivial
    | error p =>
      dsimp only
      split_ifs
      · exact ih
      · trivial

lemma stamps_coSign {conf : NodeConfig} {localSigner : Signer} {req : SignRequest} (h : conf.Follows token) :
    Every (Stamps token) (coSign d n conf localSigner req).run := by
  unfold coSign
  refine every_passed fun ns hns => every_checked fun _ => every_request_bind (stamps_checkPatiently _ 12) fun _ => ?_
  refine every_passed fun _ hmatches => ?_
  obtain ⟨-, -, htoken, -⟩ := require_eq_ok.mp hmatches
  have hrouted : Routed token req.claim.namespaceId req.message.token := by
    rw [htoken]
    exact h _ ns (expect_eq_ok.mp hns)
  refine every_request_bind (every_outcome (stamps_read fun _ _ => rfl)) fun _ => every_checked fun _ => ?_
  exact every_checked fun _ => every_request_bind stamps_attest fun _ => stamps_signDigest hrouted

theorem stamps_serve {s : Network} (h : (s.nodes n).conf.Follows token) (r : SettlementRequest) :
    Every (Stamps token) (s.serve d n r) := by
  cases r with
  | settle claim =>
    refine every_served (every_request_bind (stamps_settle h) fun certificate => every_step ?_)
    exact stamps_same fun w s => ⟨fun _ => rfl, rfl, rfl, rfl⟩
  | signForPeer req =>
    refine every_bind ?_ fun _ => trivial
    unfold signForPeer
    cases (s.nodes n).conf.committee.bind Committee.localSigner with
    | none => trivial
    | some localSigner =>
      refine every_bind (stamps_coSign h) fun r => ?_
      cases r <;> trivial

end Steps

/-! ### Runs -/

/-- A node that crashes comes back with the same tokens. -/
def Reopens (token : Namespace → Option Nat) : Happening → Prop
  | .crash _ r => r.conf.Follows token
  | _ => True

/-- The nodes are configured with the namespaces' tokens, and what they sign is of these. -/
structure Stamped (token : Namespace → Option Nat) (run : Run) : Prop where
  follows : ∀ n, (run.state.nodes n).conf.Follows token
  signed : ∀ x ∈ run.state.signed, Routed token x.claim.namespaceId x.message.token
  running : ∀ p ∈ run.running, Every (Stamps token) p.2

lemma Stamped.change {run : Run} {t : Network} {u : Change} (h : Stamped token run)
    (hu : run.state.change d u = .ok t) : Stamped token { run with state := t } := by
  have hsame (hconf : ∀ m, (t.nodes m).conf = (run.state.nodes m).conf) (hsigned : t.signed = run.state.signed) :
      Stamped token { run with state := t } :=
    ⟨fun m => (hconf m).symm ▸ h.follows m, fun x hx => h.signed x (hsigned ▸ hx), h.running⟩
  cases u with
  | finalize tx =>
    obtain rfl := Except.ok.inj hu
    exact hsame (fun _ => rfl) rfl
  | apply m =>
    change (if _ then _ else _) = _ at hu
    split_ifs at hu
    obtain rfl := Except.ok.inj hu
    exact hsame (conf_setNode rfl) rfl
  | call e =>
    obtain ⟨chain, -, rfl⟩ := exceptMap_eq_ok.mp hu
    exact hsame (fun _ => rfl) rfl
  | confirm m namespaceId withdrawalId txHash =>
    obtain rfl := Except.ok.inj hu
    exact hsame (conf_setNode rfl) rfl

theorem stamped_step {run run' : Run} {e : Happening} (h : Stamped token run) (hreopens : Reopens token e)
    (hstep : (Network.machine d).step run e = .ok run') : Stamped token run' := by
  cases e with
  | request i r =>
    obtain rfl := Except.ok.inj hstep
    refine ⟨h.follows, h.signed, fun p hp => ?_⟩
    rcases List.mem_append.mp hp with hold | hnew
    · exact h.running p hold
    · rw [List.mem_singleton.mp hnew]
      exact stamps_serve (h.follows i) r
  | resume k w =>
    obtain ⟨i, update, next, hrunning, rfl⟩ := Machine.step_resume hstep
    obtain ⟨hstamps, hnext⟩ := h.running _ (List.mem_of_getElem? hrunning)
    refine ⟨fun m => ?_, fun x hx => ?_, fun p hp => ?_⟩
    · rw [hstamps.conf]
      exact h.follows m
    · rcases hstamps.signed w run.state x hx with hold | hnew
      · exact h.signed x hold
      · exact hnew
    · rcases List.mem_or_eq_of_mem_set hp with hold | rfl
      · exact h.running p hold
      · exact hnext w run.state
  | crash i r =>
    obtain rfl := Except.ok.inj hstep
    refine ⟨fun m => ?_, h.signed, fun p hp => h.running p (List.mem_filter.mp hp).1⟩
    show (((run.state.setNode i _).nodes m).conf).Follows token
    by_cases hm : m = i
    · rw [hm, Network.setNode_self]
      exact hreopens
    · rw [Network.setNode_of_ne hm]
      exact h.follows m
  | outside u =>
    obtain ⟨next, hu, rfl⟩ := Machine.step_outside hstep
    exact h.change hu

end Peal.Links
