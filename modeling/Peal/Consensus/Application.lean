import Peal.Consensus.Actor
import Peal.Links.Restart
import Mathlib.Tactic
import Mathlib.Logic.Equiv.List

namespace Peal.Consensus
open Peal.Fallible Peal.Runs
open Peal.Links (Crypto Bytes Id Tx Block Head State)

/-! # The order in which a validator applies blocks -/

/-- A chain of blocks from genesis, each as its bytes came. -/
structure Linked (cfg : Config) (chain : List Cached) : Prop where
  decodes : ∀ c ∈ chain, cfg.decodeBlock c.bytes = .ok c.block
  height : ∀ k c, chain[k]? = some c → c.block.height = k + 1
  first : ∀ c, chain[0]? = some c → c.block.parent = cfg.genesis
  parent : ∀ k c d, chain[k]? = some c → chain[k + 1]? = some d → d.block.parent = cfg.digest c.bytes

/-- No other bytes have the digest of a block of the chain. -/
def Bound (cfg : Config) (chain : List Cached) : Prop :=
  ∀ c ∈ chain, ∀ bytes, cfg.digest bytes = cfg.digest c.bytes → bytes = c.bytes

/-- What is read back from a block's JSON is that block. -/
def ReadsBack (cfg : Config) : Prop :=
  ∀ block block', cfg.parseBlock (cfg.encodeBlock block) = .ok block' → block' = block

/-- Every report of a finalized block is of genesis or of the chain. -/
def Reported (cfg : Config) (chain : List Cached) : Actor.Event → Prop
  | .finalized id _ => id = cfg.genesis ∨ ∃ c ∈ chain, cfg.digest c.bytes = id
  | _ => True

variable {cfg : Config} {chain : List Cached}

/-- A digest that names the chain's block at a height. -/
def At (cfg : Config) (chain : List Cached) (height : Nat) (id : Id) : Prop :=
  ∃ k c, height = k + 1 ∧ chain[k]? = some c ∧ cfg.digest c.bytes = id

lemma At.mem {height : Nat} {id : Id} (h : At cfg chain height id) : ∃ c ∈ chain, cfg.digest c.bytes = id := by
  obtain ⟨k, c, -, hk, hid⟩ := h
  exact ⟨c, List.mem_of_getElem? hk, hid⟩

lemma Linked.at_height (h : Linked cfg chain) {c : Cached} (hc : c ∈ chain) :
    At cfg chain c.block.height (cfg.digest c.bytes) := by
  obtain ⟨k, hk⟩ := List.mem_iff_getElem?.mp hc
  exact ⟨k, c, h.height k c hk, hk, rfl⟩

lemma Linked.at_parent (h : Linked cfg chain) {c : Cached} (hc : c ∈ chain) (hheight : 1 < c.block.height) :
    At cfg chain (c.block.height - 1) c.block.parent := by
  obtain ⟨k, hk⟩ := List.mem_iff_getElem?.mp hc
  have hat := h.height k c hk
  obtain ⟨j, rfl⟩ : ∃ j, k = j + 1 := Nat.exists_eq_succ_of_ne_zero (by omega)
  have hj : j < chain.length := by
    have := (List.getElem?_eq_some_iff.mp hk).1
    omega
  refine ⟨j, chain[j], by omega, List.getElem?_eq_getElem hj, ?_⟩
  exact (h.parent j _ c (List.getElem?_eq_getElem hj) hk).symm

/-- An entry of the cache: its key is the digest of its bytes, and its block is what they decode to. -/
def Genuine (cfg : Config) (e : Id × Cached) : Prop :=
  e.1 = cfg.digest e.2.bytes ∧ ∀ block, cfg.decodeBlock e.2.bytes = .ok block → e.2.block = block

/-- Where the application of blocks is: nothing under way, a task spawned for the block after the head, or a task that
has ended and left its message. -/
inductive Phase (chain : List Cached) (a : Chain) : Prop where
  | idle (applying : a.applying = false) (tasks : a.tasks = []) (completions : a.completions = [])
      (head : a.head = a.state.head)
  | spawned (id : Id) (c : Cached) (applying : a.applying = true) (tasks : a.tasks = [(id, c)])
      (completions : a.completions = []) (head : a.head = a.state.head) (extends_ : a.state.Extends c.block)
      (next : chain[a.state.head.height]? = some c)
  | finished (id : Id) (c : Cached) (results : Except String (List Outcome)) (applying : a.applying = true)
      (tasks : a.tasks = []) (completions : a.completions = [(id, c, results)])
      (head : ∀ e, results = .error e → a.head = a.state.head)

def stored (calls : List (Cached × Bool)) : Nat := calls.countP Prod.snd

/-- What holds of a validator that started at `height`. -/
structure Inv (cfg : Config) (chain : List Cached) (height : Nat) (a : Chain) : Prop where
  cache : ∀ e ∈ a.blocks, Genuine cfg e
  known : ∀ e ∈ a.finalizedKnown, At cfg chain e.1 e.2
  unknown : ∀ id ∈ a.finalizedUnknown, ∃ c ∈ chain, cfg.digest c.bytes = id
  phase : Phase chain a
  applied : a.state.head.height = height + stored a.calls
  calls : ∀ i call, a.calls[i]? = some call → chain[height + stored (a.calls.take i)]? = some call.1

section Steps

variable (hlinked : Linked cfg chain) (hbound : Bound cfg chain) {height : Nat} {a : Actor}

include hlinked hbound in
lemma Inv.cached (h : Inv cfg chain height a.toChain) {c b : Cached} (hc : c ∈ chain)
    (hb : Assoc.get a.blocks (cfg.digest c.bytes) = some b) : b = c := by
  obtain ⟨hid, hdecodes⟩ := h.cache _ (Assoc.mem_of_get hb)
  have hbytes : b.bytes = c.bytes := hbound c hc b.bytes hid.symm
  have hblock := hdecodes c.block (by rw [hbytes]; exact hlinked.decodes c hc)
  cases b
  cases c
  simp_all

lemma Inv.of_frame {a' : Chain} (h : Inv cfg chain height a.toChain) (hcache : ∀ e ∈ a'.blocks, Genuine cfg e)
    (hknown : ∀ e ∈ a'.finalizedKnown, At cfg chain e.1 e.2)
    (hunknown : ∀ id ∈ a'.finalizedUnknown, ∃ c ∈ chain, cfg.digest c.bytes = id)
    (hrest : a' = { a.toChain with
      blocks := a'.blocks
      finalizedKnown := a'.finalizedKnown
      finalizedUnknown := a'.finalizedUnknown }) : Inv cfg chain height a' := by
  refine ⟨hcache, hknown, hunknown, ?_, ?_, ?_⟩
  · rw [hrest]
    cases h.phase with
    | idle applying tasks completions head => exact .idle applying tasks completions head
    | spawned id c applying tasks completions head extends_ next =>
      exact .spawned id c applying tasks completions head extends_ next
    | finished id c results applying tasks completions head =>
      exact .finished id c results applying tasks completions head
  · rw [hrest]
    exact h.applied
  · rw [hrest]
    exact h.calls

lemma Inv.markKnown (h : Inv cfg chain height a.toChain) {n : Nat} {id : Id} (hat : At cfg chain n id) :
    Inv cfg chain height (a.markKnown n id).toChain := by
  refine h.of_frame h.cache (fun e he => ?_) h.unknown rfl
  rcases Assoc.mem_of_mem_insertSorted he with rfl | hmem
  · exact hat
  · exact h.known e hmem

lemma Inv.forgetKnown (h : Inv cfg chain height a.toChain) (n : Nat) :
    Inv cfg chain height (a.forgetKnown n).toChain :=
  h.of_frame h.cache (fun e he => h.known e (Assoc.mem_erase.mp he).1) h.unknown rfl

lemma Inv.cacheBlock (h : Inv cfg chain height a.toChain) {c : Cached}
    (hc : ∀ block, cfg.decodeBlock c.bytes = .ok block → c.block = block) :
    Inv cfg chain height { a.toChain with blocks := Assoc.insert a.blocks (cfg.digest c.bytes) c } := by
  refine h.of_frame (fun e he => ?_) h.known h.unknown rfl
  rcases Assoc.mem_insert.mp he with rfl | ⟨hmem, -⟩
  · exact ⟨rfl, hc⟩
  · exact h.cache e hmem

include hlinked hbound in
lemma Inv.walk (now rounds : Nat) {cur : Id} (progressed : Bool) (h : Inv cfg chain height a.toChain)
    (hcur : ∃ c ∈ chain, cfg.digest c.bytes = cur) :
    Inv cfg chain height (Actor.walk now rounds cur progressed a).2.toChain := by
  induction rounds generalizing cur progressed a with
  | zero => exact h
  | succ rounds ih =>
    obtain ⟨c, hc, rfl⟩ := hcur
    rw [Actor.walk]
    split
    · rw [Actor.request_toChain]
      exact h
    · next b hb =>
      obtain rfl := h.cached hlinked hbound hc hb
      split
      · split
        · exact h.markKnown (hlinked.at_height hc)
        · exact h
      · have hat := hlinked.at_parent hc (by omega)
        exact ih _ (h.markKnown hat) hat.mem

include hlinked hbound in
lemma Inv.drain (now rounds : Nat) (h : Inv cfg chain height a.toChain) :
    Inv cfg chain height (Actor.drain cfg now rounds a).toChain := by
  induction rounds generalizing a with
  | zero => exact h
  | succ rounds ih =>
    rw [Actor.drain]
    split
    · exact h
    · next n id hfirst =>
      have hat : At cfg chain n id := h.known _ (List.mem_of_head? hfirst)
      split
      · exact ih (h.forgetKnown n)
      · split
        · next hnext =>
          split
          · rw [Actor.request_toChain]
            exact h
          · next cached hcached =>
            split
            · exact ih (h.forgetKnown n)
            · next hparent =>
              split
              · exact h
              · next hidle =>
                obtain ⟨k, c, hk, hck, rfl⟩ := hat
                obtain rfl := h.cached hlinked hbound (List.mem_of_getElem? hck) hcached
                cases h.phase with
                | idle applying tasks completions head =>
                  rw [head] at hnext hparent
                  have hheight : k = a.state.head.height := by omega
                  refine ⟨h.cache, h.known, h.unknown, ?_, h.applied, h.calls⟩
                  refine .spawned (cfg.digest cached.bytes) cached rfl ?_ completions head ?_ (hheight ▸ hck)
                  · show a.tasks ++ _ = _
                    rw [tasks, List.nil_append]
                  · exact ⟨not_not.mp hparent, by rw [hlinked.height k cached hck, hheight]⟩
                | spawned _ _ applying => exact absurd applying hidle
                | finished _ _ _ applying => exact absurd applying hidle
        · have hwalk := h.walk hlinked hbound now cfg.rounds false hat.mem
          split <;> next b heq =>
            rw [heq] at hwalk
            first | exact ih hwalk | exact hwalk

include hlinked hbound in
lemma Inv.onFinalized (h : Inv cfg chain height a.toChain) {id : Id} (now : Nat)
    (hid : id = cfg.genesis ∨ ∃ c ∈ chain, cfg.digest c.bytes = id) :
    Inv cfg chain height (a.onFinalized cfg id now).toChain := by
  unfold Actor.onFinalized
  split
  · exact h
  · next hgenesis =>
    obtain ⟨c, hc, rfl⟩ := hid.resolve_left hgenesis
    refine Inv.drain hlinked hbound now cfg.rounds ?_
    split
    · next b hb =>
      obtain rfl := h.cached hlinked hbound hc hb
      exact h.markKnown (hlinked.at_height hc)
    · split
      · exact h
      · rw [Actor.request_toChain]
        refine h.of_frame h.cache h.known (fun id hid => ?_) rfl
        rcases Finset.mem_insert.mp hid with rfl | hmem
        · exact ⟨c, hc, rfl⟩
        · exact h.unknown id hmem

include hlinked hbound in
lemma Inv.recognize (h : Inv cfg chain height a.toChain) (id : Id) :
    Inv cfg chain height (a.recognize id).toChain := by
  unfold Actor.recognize
  split
  · next hid =>
    obtain ⟨c, hc, rfl⟩ := h.unknown id hid
    have hforgot : Inv cfg chain height { a.toChain with
        finalizedUnknown := a.finalizedUnknown.erase (cfg.digest c.bytes) } :=
      h.of_frame h.cache h.known (fun id hid => h.unknown id (Finset.mem_of_mem_erase hid)) rfl
    dsimp only
    split
    · next b hb =>
      obtain rfl := h.cached hlinked hbound hc hb
      exact Inv.markKnown (a := { a with finalizedUnknown := a.finalizedUnknown.erase (cfg.digest b.bytes) }) hforgot
        (hlinked.at_height hc)
    · exact hforgot
  · exact h

include hlinked hbound in
lemma Inv.onBlock (h : Inv cfg chain height a.toChain) (raw : Bytes) (now : Nat) :
    Inv cfg chain height (a.onBlock cfg raw now).toChain := by
  unfold Actor.onBlock
  dsimp only
  split
  · exact h
  · split
    · next block hblock =>
      split
      · refine Inv.drain hlinked hbound now cfg.rounds (Inv.recognize hlinked hbound ?_ _)
        rw [Actor.wake_toChain]
        exact h.cacheBlock (c := ⟨block, raw⟩) fun block' hblock' => by
          rw [hblock] at hblock'
          exact Except.ok.inj hblock'
      · exact h
    · exact h

lemma Inv.onPropose (hread : ReadsBack cfg) (h : Inv cfg chain height a.toChain) (context : Ctx) (now : Nat) :
    Inv cfg chain height (a.onPropose cfg context now).toChain := by
  unfold Actor.onPropose
  split
  · rw [Actor.request_toChain]
    exact h
  · dsimp only
    exact h.cacheBlock (c := ⟨_, cfg.encodeBlock _⟩) fun block' hblock' =>
      (hread _ _ (cfg.decodeBlock_parsed hblock')).symm

lemma stored_concat (calls : List (Cached × Bool)) (call : Cached × Bool) :
    stored (calls ++ [call]) = stored calls + if call.2 then 1 else 0 := by
  rw [stored, List.countP_append, List.countP_singleton]
  rfl

lemma calls_concat {calls : List (Cached × Bool)} {call : Cached × Bool}
    (h : ∀ i x, calls[i]? = some x → chain[height + stored (calls.take i)]? = some x.1)
    (hcall : chain[height + stored calls]? = some call.1) {i : Nat} {x : Cached × Bool}
    (hx : (calls ++ [call])[i]? = some x) : chain[height + stored ((calls ++ [call]).take i)]? = some x.1 := by
  rcases lt_trichotomy i calls.length with hlt | rfl | hgt
  · rw [List.getElem?_append_left hlt] at hx
    rw [List.take_append_of_le_length hlt.le]
    exact h i x hx
  · rw [List.getElem?_concat_length] at hx
    obtain rfl := Option.some.inj hx
    rwa [List.take_left]
  · rw [List.getElem?_eq_none (by rw [List.length_append]; exact hgt)] at hx
    cases hx

lemma Inv.runTask (h : Inv cfg chain height a.toChain) (i : Nat) (written : Bool) :
    Inv cfg chain height (a.runTask cfg i written).toChain := by
  unfold Actor.runTask
  split
  · exact h
  · next id c htask =>
    cases h.phase with
    | idle _ tasks => simp [tasks] at htask
    | finished _ _ _ _ tasks => simp [tasks] at htask
    | spawned id' c' applying tasks completions head extends_ next =>
      rw [tasks, List.getElem?_singleton] at htask
      split at htask
      · next hi =>
        obtain ⟨rfl, rfl⟩ := Prod.mk.inj (Option.some.inj htask)
        obtain ⟨results, happly⟩ : ∃ results, a.state.applyBlock cfg.crypto c'.block id' =
            .ok (a.state.commit cfg.crypto c'.block id'
              (exec (Links.txStep cfg.crypto) a.state.ledgers c'.block.txs), results) :=
          Links.applyBlock_eq_ok.mpr ⟨extends_, rfl⟩
        have hgone : a.tasks.eraseIdx i = [] := by rw [tasks, hi]; rfl
        have hcalls : ∀ j x, (a.calls ++ [(c', written)])[j]? = some x →
            chain[height + stored ((a.calls ++ [(c', written)]).take j)]? = some x.1 :=
          fun j x hx => calls_concat h.calls (by rw [← h.applied]; exact next) hx
        simp only [happly]
        cases written with
        | true =>
          refine ⟨h.cache, h.known, h.unknown, ?_, ?_, hcalls⟩
          · refine .finished id' c' (.ok results) applying hgone ?_ fun e he => by cases he
            show a.completions ++ _ = _
            rw [completions, List.nil_append]
          · show c'.block.height = height + stored (a.calls ++ [(c', true)])
            rw [stored_concat, if_pos rfl, ← Nat.add_assoc, ← h.applied, extends_.2]
        | false =>
          refine ⟨h.cache, h.known, h.unknown, ?_, ?_, hcalls⟩
          · refine .finished id' c' (.error "block store") applying hgone ?_ fun _ _ => head
            show a.completions ++ _ = _
            rw [completions, List.nil_append]
          · show a.state.head.height = height + stored (a.calls ++ [(c', false)])
            rw [stored_concat, if_neg Bool.false_ne_true, Nat.add_zero, h.applied]
      · cases htask

lemma Inv.pruneBlocks (h : Inv cfg chain height a.toChain) : Inv cfg chain height a.pruneBlocks.toChain := by
  refine h.of_frame (fun e he => h.cache e ?_) h.known h.unknown rfl
  have hkept : ∀ e ∈ a.pruneBlocks.blocks, e ∈ a.blocks := by
    intro e he
    unfold Actor.pruneBlocks at he
    dsimp only at he
    split at he
    · exact List.mem_of_mem_filter (List.mem_of_mem_filter he)
    · exact List.mem_of_mem_filter he
  exact hkept e he

include hlinked hbound in
lemma Inv.onCompletion (h : Inv cfg chain height a.toChain) (i now : Nat) :
    Inv cfg chain height (a.onCompletion cfg i now).toChain := by
  unfold Actor.onCompletion
  split
  · exact h
  · next id c results hdone =>
    cases h.phase with
    | idle _ _ completions => simp [completions] at hdone
    | spawned _ _ _ _ completions => simp [completions] at hdone
    | finished id' c' results' applying tasks completions head =>
      rw [completions, List.getElem?_singleton] at hdone
      split at hdone
      · next hi =>
        obtain ⟨-, hpair⟩ := Prod.mk.inj (Option.some.inj hdone)
        obtain ⟨rfl, rfl⟩ := Prod.mk.inj hpair
        have hgone : a.completions.eraseIdx i = [] := by rw [completions, hi]; rfl
        refine Inv.drain hlinked hbound now cfg.rounds ?_
        have hknown : ∀ e ∈ Assoc.erase a.finalizedKnown c'.block.height, At cfg chain e.1 e.2 :=
          fun e he => h.known e (Assoc.mem_erase.mp he).1
        split
        · exact ⟨h.cache, hknown, h.unknown, .idle rfl tasks hgone (head _ rfl), h.applied, h.calls⟩
        · refine Inv.pruneBlocks ?_
          exact ⟨h.cache, hknown, h.unknown, .idle rfl tasks hgone rfl, h.applied, h.calls⟩
      · cases hdone

include hlinked hbound in
lemma Inv.step (hread : ReadsBack cfg) (h : Inv cfg chain height a.toChain) {e : Actor.Event}
    (he : Reported cfg chain e) {a' : Actor} (hstep : Actor.step cfg a e = .ok a') :
    Inv cfg chain height a'.toChain := by
  cases e <;> simp only [Actor.step, Except.ok.injEq] at hstep <;> subst hstep
  case propose context now =>
    split
    · exact h
    · exact h.onPropose hread context now
  case proposeNow context now => exact h.onPropose hread context now
  case verify context id now =>
    rw [(a.onVerify_frame id now context).2]
    exact h
  case finalized id now => exact h.onFinalized hlinked hbound now he
  case block raw now => exact h.onBlock hlinked hbound raw now
  case runTask i written => exact h.runTask i written
  case applied i now => exact h.onCompletion hlinked hbound i now
  all_goals exact h

end Steps

/-! ### Runs -/

/-- The blocks whose application was stored. -/
def storedBlocks (calls : List (Cached × Bool)) : List Cached := (calls.filter Prod.snd).map Prod.fst

lemma storedBlocks_length (calls : List (Cached × Bool)) : (storedBlocks calls).length = stored calls := by
  rw [storedBlocks, List.length_map, stored, List.countP_eq_length_filter]

lemma storedBlocks_eq {height : Nat} {calls : List (Cached × Bool)}
    (h : ∀ i call, calls[i]? = some call → chain[height + stored (calls.take i)]? = some call.1) :
    storedBlocks calls = (chain.drop height).take (stored calls) := by
  induction calls using List.reverseRecOn with
  | nil => simp [storedBlocks, stored]
  | append_singleton calls call ih =>
    have hbefore : ∀ i x, calls[i]? = some x → chain[height + stored (calls.take i)]? = some x.1 := by
      intro i x hx
      have hi : i < calls.length := (List.getElem?_eq_some_iff.mp hx).1
      have hcall := h i x (by rwa [List.getElem?_append_left hi])
      rwa [List.take_append_of_le_length hi.le] at hcall
    have hlast := h calls.length call List.getElem?_concat_length
    rw [List.take_left] at hlast
    rw [stored_concat, storedBlocks, List.filter_append, List.map_append, ← storedBlocks, ih hbefore]
    cases hstored : call.2 with
    | false => simp [hstored]
    | true =>
      rw [if_pos rfl, List.take_add_one, List.getElem?_drop, hlast]
      simp [hstored]

lemma Linked.heights (h : Linked cfg chain) (height n : Nat) :
    ((chain.drop height).take n).map (fun c => c.block.height) =
      List.range' (height + 1) ((chain.drop height).take n).length := by
  refine List.ext_getElem (by rw [List.length_map, List.length_range']) fun i hi _ => ?_
  rw [List.length_map] at hi
  have hlt : height + i < chain.length := by
    have hshort := hi.trans_le (List.length_take_le' _ _)
    rw [List.length_drop] at hshort
    omega
  rw [List.getElem_map, List.getElem_range', List.getElem_take, List.getElem_drop,
    h.height _ _ (List.getElem?_eq_getElem hlt)]
  omega

lemma Phase.one_in_flight {a : Chain} (h : Phase chain a) : a.tasks.length + a.completions.length ≤ 1 := by
  cases h with
  | idle _ tasks completions => simp [tasks, completions]
  | spawned _ _ _ tasks completions => simp [tasks, completions]
  | finished _ _ _ _ tasks completions => simp [tasks, completions]

lemma start_inv (s : State) : Inv cfg chain s.head.height (Actor.start s).toChain where
  cache _ h := absurd h List.not_mem_nil
  known _ h := absurd h List.not_mem_nil
  unknown _ h := absurd h (Finset.notMem_empty _)
  phase := .idle rfl rfl rfl rfl
  applied := rfl
  calls _ _ h := by cases h

/-- The blocks that are applied and stored are the chain's, from the one after the stored head on, in order and each
once; a block is handed to `apply_block` only as the next of them, and never while another is under way. -/
theorem applied_in_order (hlinked : Linked cfg chain) (hbound : Bound cfg chain) (hread : ReadsBack cfg) (s : State)
    (es : List Actor.Event) (hreports : ∀ e ∈ es, Reported cfg chain e) :
    let a := exec (Actor.step cfg) (Actor.start s) es
    storedBlocks a.calls <+: chain.drop s.head.height ∧
    (storedBlocks a.calls).map (fun c => c.block.height) =
      List.range' (s.head.height + 1) (storedBlocks a.calls).length ∧
    (storedBlocks a.calls).Nodup ∧
    (∀ i call, a.calls[i]? = some call →
      chain[s.head.height + (storedBlocks (a.calls.take i)).length]? = some call.1) ∧
    a.tasks.length + a.completions.length ≤ 1 := by
  intro a
  have hinv : Inv cfg chain s.head.height a.toChain :=
    exec_invariant_along (I := fun a => Inv cfg chain s.head.height a.toChain) (Actor.step cfg)
      (fun _ _ _ h he hstep => h.step hlinked hbound hread he hstep) (start_inv s)
      (along_of_forall _ (fun e he _ => hreports e he) _)
  have hblocks := storedBlocks_eq hinv.calls
  have hheights := hlinked.heights s.head.height (stored a.calls)
  rw [← hblocks] at hheights
  refine ⟨?_, hheights, ?_, fun i call hcall => ?_, hinv.phase.one_in_flight⟩
  · rw [hblocks]
    exact List.take_prefix _ _
  · apply List.Nodup.of_map fun c : Cached => c.block.height
    rw [hheights]
    exact List.nodup_range'
  · rw [storedBlocks_length]
    exact hinv.calls i call hcall

section Sample

def emptyBlock (height : Nat) (parent : Id) : Block := ⟨VERSION, 0, height, height, parent, []⟩

/-- Only blocks without transactions are written and read; no two byte strings have one digest. -/
def retryConfig : Config where
  crypto := Links.sampleCrypto
  genesis := 77
  maxBlockTxs := 64
  mempoolTtl := 30000
  encodeTx tx := [tx.namespaceId]
  parseTx _ := .error "no transaction"
  encodeBlock block := if block = emptyBlock block.height block.parent then [block.height, block.parent] else []
  parseBlock
    | [height, parent] => .ok (emptyBlock height parent)
    | _ => .error "no block"
  digest := Encodable.encode
  rounds := 4

def retryFirst : Cached := ⟨emptyBlock 1 77, [1, 77]⟩

def retrySecond : Cached :=
  ⟨emptyBlock 2 (Encodable.encode retryFirst.bytes), [2, Encodable.encode retryFirst.bytes]⟩

def retryChain : List Cached := [retryFirst, retrySecond]

/-- The second block is reported and comes first; the block store fails once on the first. -/
def retryEvents : List Actor.Event :=
  [.finalized (Encodable.encode retrySecond.bytes) 0, .block retrySecond.bytes 0, .block retryFirst.bytes 0,
    .runTask 0 false, .applied 0 0, .runTask 0 true, .applied 0 0]

lemma retry_linked : Linked retryConfig retryChain where
  decodes := by decide +kernel
  height k c hk := by
    rcases k with _ | _ | k
    · cases hk
      rfl
    · cases hk
      rfl
    · cases hk
  first c hc := by cases hc; rfl
  parent k c d hc hd := by
    rcases k with _ | k
    · cases hc
      cases hd
      rfl
    · cases hd

lemma retry_bound : Bound retryConfig retryChain := fun _ _ _ h => Encodable.encode_injective h

lemma retry_readsBack : ReadsBack retryConfig := by
  intro block block' h
  by_cases hempty : block = emptyBlock block.height block.parent
  · have hbytes : retryConfig.encodeBlock block = [block.height, block.parent] := if_pos hempty
    rw [hbytes] at h
    exact (Except.ok.inj h).symm.trans hempty.symm
  · have hbytes : retryConfig.encodeBlock block = [] := if_neg hempty
    rw [hbytes] at h
    cases h

lemma retry_reported : ∀ e ∈ retryEvents, Reported retryConfig retryChain e := by
  intro e he
  simp only [retryEvents, List.mem_cons, List.not_mem_nil, or_false] at he
  rcases he with rfl | rfl | rfl | rfl | rfl | rfl | rfl
  · exact .inr ⟨retrySecond, by decide +kernel, rfl⟩
  all_goals trivial

theorem applied_in_order_sample :
    storedBlocks (exec (Actor.step retryConfig) (Actor.start Links.sampleState) retryEvents).calls <+: retryChain :=
  (applied_in_order retry_linked retry_bound retry_readsBack Links.sampleState retryEvents retry_reported).1

/-- The block whose application could not be stored is handed to `apply_block` again. -/
theorem handed_again : Linked retryConfig retryChain ∧ Bound retryConfig retryChain ∧ ReadsBack retryConfig ∧
    (∀ e ∈ retryEvents, Reported retryConfig retryChain e) ∧
    (exec (Actor.step retryConfig) (Actor.start Links.sampleState) retryEvents).calls.map Prod.fst =
      [retryFirst, retryFirst] ∧
    ¬[retryFirst, retryFirst] <+: retryChain :=
  ⟨retry_linked, retry_bound, retry_readsBack, retry_reported, by decide +kernel, by decide +kernel⟩

end Sample

end Peal.Consensus
