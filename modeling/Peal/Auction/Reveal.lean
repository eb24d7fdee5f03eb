import Peal.Auction.Lifecycle

namespace Peal.Auction
open Peal.Fallible Peal.SortedPairTree Peal.Runs Peal.Rows SealedBidAuction

/-! # The attested reveal tree -/

/-- What the committee decrypts for one bid; the bid version is not part of it. -/
structure Plaintext where
  quantity : Nat
  tick : Nat
  salt : Nat
  deriving DecidableEq, Repr

def attestedLeaf (env : Env) (bidId : Nat) (p : Plaintext) : Nat :=
  revealLeaf env bidId p.quantity p.tick p.salt

/-- `root` is the root of some tree, of any shape, over the leaves of the attested list. -/
def Attests (env : Env) (attested : List Plaintext) (root : Nat) : Prop :=
  ∃ t : HashTree, t.root env.keccak256 = root ∧
    ∀ v, v ∈ t.leaves ↔ ∃ i p, attested[i]? = some p ∧ v = attestedLeaf env i p

lemma attests_tree (env : Env) {attested : List Plaintext} {t : HashTree}
    (h : t.leaves = attested.mapIdx (attestedLeaf env)) : Attests env attested (t.root env.keccak256) := by
  refine ⟨t, rfl, fun v => ?_⟩
  rw [h, List.mem_mapIdx]
  constructor
  · rintro ⟨i, hi, heq⟩
    exact ⟨i, attested[i], List.getElem?_eq_getElem hi, heq.symm⟩
  · rintro ⟨i, p, hp, heq⟩
    obtain ⟨hi, hget⟩ := List.getElem?_eq_some_iff.mp hp
    exact ⟨i, hi, by rw [hget, heq]⟩

lemma revealLeaf_inj {env : Env} (hinj : Function.Injective env.keccak256) {i j q q' t t' s s' : Nat}
    (h : revealLeaf env i q t s = revealLeaf env j q' t' s') : i = j ∧ q = q' ∧ t = t' ∧ s = s' := by
  unfold revealLeaf at h
  have houter := hinj h
  simp only [List.cons.injEq, and_true] at houter
  have hinner := hinj houter
  simpa only [List.cons.injEq, and_true] using hinner

lemma bidCommitment_inj {env : Env} (hinj : Function.Injective env.keccak256) {b q t s v v' : Nat}
    (h : bidCommitment env b q t s v = bidCommitment env b q t s v') : v = v' := by
  unfold bidCommitment at h
  have hwords := hinj h
  simpa only [List.cons.injEq, and_true, true_and] using hwords

/-- An entry whose proof climbs to the root is the plaintext attested for its bid. -/
theorem Attests.entry_eq {env : Env} (hinj : Function.Injective env.keccak256)
    {attested : List Plaintext} {root : Nat} (h : Attests env attested root) {e : RevealEntry}
    (hproof : climb env.keccak256 (revealLeaf env e.bidId e.quantity e.tick e.salt) e.proof = root) :
    attested[e.bidId]? = some ⟨e.quantity, e.tick, e.salt⟩ := by
  obtain ⟨t, hroot, hleaves⟩ := h
  have hforms : ∀ v ∈ t.leaves, ∃ u, v = env.keccak256 [u] := by
    intro v hv
    obtain ⟨i, p, -, hvp⟩ := (hleaves v).mp hv
    exact ⟨_, hvp⟩
  have hmem : revealLeaf env e.bidId e.quantity e.tick e.salt ∈ t.leaves := by
    apply climb_sound hinj hforms
    rw [hroot]
    exact hproof
  obtain ⟨i, p, hp, heq⟩ := (hleaves _).mp hmem
  obtain ⟨hid, hq, ht, hs⟩ := revealLeaf_inj hinj heq
  rw [hid, hq, ht, hs]
  exact hp

/-- Every attested plaintext has a proof. -/
theorem Attests.exists_proof {env : Env} {attested : List Plaintext} {root : Nat}
    (h : Attests env attested root) {i : Nat} {p : Plaintext} (hp : attested[i]? = some p) :
    ∃ proof, climb env.keccak256 (attestedLeaf env i p) proof = root := by
  obtain ⟨t, hroot, hleaves⟩ := h
  have hmem : attestedLeaf env i p ∈ t.leaves := (hleaves _).mpr ⟨i, p, hp, rfl⟩
  obtain ⟨proof, hproof⟩ := climb_complete env.keccak256 hmem
  exact ⟨proof, hproof.trans hroot⟩

/-! ### Nothing is revealed before the root is registered -/

def isSealed : State → Bool
  | .created | .funded | .commitOpen | .commitClosed | .cancelled => true
  | _ => false

/-- While the auction is sealed, no bid is revealed and none is voided. -/
def SealedBids (a : SealedBidAuction) : Prop :=
  isSealed a.state = true →
    (∀ b ∈ a.bids, b.revealed = false ∧ b.voided = false) ∧ a.voidedBidCount = 0

lemma SealedBids.moveTo {a : SealedBidAuction} (h : SealedBids a) {s : State}
    (hs : isSealed a.state = true) : SealedBids { a with state := s } :=
  fun _ => h hs

lemma sealedBids_open {a : SealedBidAuction} (hs : isSealed a.state = false) : SealedBids a := by
  intro hsealed
  rw [hs] at hsealed
  exact absurd hsealed Bool.false_ne_true

lemma SealedBids.commit {a : SealedBidAuction} (h : SealedBids a) (hs : isSealed a.state = true)
    {b : Bid} (hr : b.revealed = false) (hv : b.voided = false) :
    SealedBids { a with bids := a.bids ++ [b] } := by
  intro _
  refine ⟨fun b' hb' => ?_, (h hs).2⟩
  rcases List.mem_append.mp hb' with hmem | hmem
  · exact (h hs).1 b' hmem
  · rw [List.mem_singleton.mp hmem]
    exact ⟨hr, hv⟩

lemma SealedBids.afterClaim {a : SealedBidAuction} (h : SealedBids a) {i : Nat} {b : Bid}
    (hb : a.bids[i]? = some b) : SealedBids (World.afterClaim a i b) := by
  intro hs
  obtain ⟨hbids, hcount⟩ := h hs
  exact ⟨forall_mem_set hbids (hbids b (List.mem_of_getElem? hb)), hcount⟩

lemma Change.sealedBids {a a' : SealedBidAuction} (hchange : Change a a') (h : SealedBids a) : SealedBids a' := by
  cases hchange with
  | same | batched | paidIssuer => exact h
  | moved hmove =>
    cases hmove with
    | fund hs | openCommit hs | closeCommit hs => exact h.moveTo (by rw [hs]; rfl)
    | cancel hs =>
      rcases hs with hs | hs | ⟨hs, -⟩
      · exact h.moveTo (by rw [hs]; rfl)
      · exact h.moveTo (by rw [hs]; rfl)
      · exact h.moveTo (by rw [hs]; rfl)
    | nobodyBid | fail => exact sealedBids_open rfl
  | committed hs hr hv => exact h.commit (by rw [hs]; rfl) hr hv
  | rooted | settled => exact sealedBids_open rfl
  | processed hs hsame => exact sealedBids_open (by rw [hsame.state, hs]; rfl)
  | claimed hb => exact h.afterClaim hb

lemma exec_sealedBids {env : Env} {registry : CommitteeRegistry} {cfg : Config} {a : SealedBidAuction}
    (ha : initializeAuction registry cfg = .ok a) (sale quote : ERC20) (calls : List (Msg env × Call)) :
    SealedBids (exec (step env) ⟨a, registry, sale, quote⟩ calls).auction := by
  have hinit : SealedBids a := by
    obtain ⟨-, rfl⟩ := initializeAuction_ok ha
    intro _
    exact ⟨fun b hb => absurd hb List.not_mem_nil, rfl⟩
  exact exec_invariant (step env) (I := fun w => SealedBids w.auction)
    (fun w c w' hw hstep => (step_change hstep).sealedBids hw) hinit calls

/-- When a reveal root is registered, no bid has been revealed or voided. -/
theorem registered_fresh {env : Env} {registry : CommitteeRegistry} {cfg : Config}
    {a : SealedBidAuction} (ha : initializeAuction registry cfg = .ok a) (sale quote : ERC20)
    (calls : List (Msg env × Call)) {msg : Msg env} {root bidCount : Nat}
    {signatures : List (List Nat)} {w' : World}
    (hreg : step env (exec (step env) ⟨a, registry, sale, quote⟩ calls)
      (msg, .registerRevealRoot root bidCount signatures) = .ok w') :
    w'.auction.state = .revealing ∧ w'.auction.revealRoot = root ∧ w'.auction.voidedBidCount = 0 ∧
      ∀ b ∈ w'.auction.bids, b.revealed = false ∧ b.voided = false := by
  have hsealed := exec_sealedBids ha sale quote calls
  obtain ⟨a', ha', rfl⟩ := World.onAuction_ok hreg
  obtain ⟨hs, rfl⟩ := registerRevealRoot_ok ha'
  obtain ⟨hbids, hcount⟩ := hsealed (by rw [hs]; rfl)
  exact ⟨rfl, rfl, hcount, hbids⟩

end Peal.Auction
