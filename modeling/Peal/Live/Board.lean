import Peal.Live.Terms
import Peal.Coordinator.Rounds
import Peal.Library.Rows

open Peal.Coordinator (Text Bytes RevealSlot Rules)

namespace Peal.Live

/-! # The board of an opened auction, as the coordinator and as the page compute it -/

/-- Amount first, then batch position. -/
def Ranked {α : Type} (amount position : α → Nat) (a b : α) : Prop :=
  amount b < amount a ∨ amount a = amount b ∧ position a ≤ position b

instance {α : Type} (amount position : α → Nat) : DecidableRel (Ranked amount position) :=
  fun _ _ => inferInstanceAs (Decidable (_ ∨ _))

inductive DiscardReason where
  | unreadable
  | otherAuction
  deriving DecidableEq, Repr

/-! ### The page -/

structure BoardEntry where
  position : Nat
  ctHash : Text
  name : Text
  amountMinor : Nat
  origin : Option BidOrigin
  meetsReserve : Bool
  withinCap : Bool
  deriving DecidableEq, Repr

structure DiscardedSlot where
  position : Nat
  ctHash : Text
  reason : DiscardReason
  deriving DecidableEq, Repr

structure Board where
  bids : List BoardEntry
  queue : List BoardEntry
  winner : Option BoardEntry
  padding : Nat
  discarded : List DiscardedSlot
  deriving DecidableEq, Repr

def PADDING_MARKER : Bytes := Utf8.encode "BTE_DUMMY_V0:".toList

def isPadding (bytes : Bytes) : Bool := PADDING_MARKER.isPrefixOf bytes

structure Scan where
  seen : List Text
  bids : List BoardEntry
  padding : Nat
  discarded : List DiscardedSlot

def boardEntry (terms : Terms) (slot : RevealSlot) (bid : BidRecord) : BoardEntry where
  position := slot.position
  ctHash := slot.ctHash
  name := bid.name
  amountMinor := bid.amountMinor
  origin := bid.origin
  meetsReserve := terms.reserveMinor.all fun r : Int => r ≤ bid.amountMinor
  withinCap := terms.maxMinor.all fun m : Int => bid.amountMinor ≤ m

def scanSlot (terms : Terms) (scan : Scan) (slot : RevealSlot) : Scan :=
  if slot.ctHash ∈ scan.seen then scan
  else
    let scan := { scan with seen := slot.ctHash :: scan.seen }
    if isPadding slot.payload then { scan with padding := scan.padding + 1 }
    else
      match decodeBid slot.payload with
      | none => { scan with discarded := scan.discarded ++ [⟨slot.position, slot.ctHash, .unreadable⟩] }
      | some bid =>
        if bid.auctionId ≠ terms.auctionId then
          { scan with discarded := scan.discarded ++ [⟨slot.position, slot.ctHash, .otherAuction⟩] }
        else { scan with bids := scan.bids ++ [boardEntry terms slot bid] }

def buildBoard (slots : List RevealSlot) (terms : Terms) : Board :=
  let scan := slots.foldl (scanSlot terms) ⟨[], [], 0, []⟩
  let bids := scan.bids.insertionSort (Ranked BoardEntry.amountMinor BoardEntry.position)
  let queue := bids.filter fun b => b.meetsReserve && b.withinCap
  ⟨bids, queue, queue.head?, scan.padding, scan.discarded⟩

end Peal.Live

namespace Peal.Coordinator
open Peal.Live (BidRecord BidOrigin DiscardReason Ranked)

/-! ### The coordinator -/

structure ResultBid where
  ctHash : Text
  position : Nat
  name : Text
  amountMinor : Nat
  meetsReserve : Bool
  withinMaximum : Bool
  sealedContact : Option Bytes
  bidIn : Option BidOrigin
  deriving DecidableEq, Repr

structure Discarded where
  ctHash : Text
  reason : DiscardReason
  deriving DecidableEq, Repr

structure AuctionResults where
  bids : List ResultBid
  queue : List ResultBid
  winner : Option ResultBid
  decoys : Nat
  discarded : List Discarded
  deriving DecidableEq, Repr

def resultBid (rules : Rules) (slot : RevealSlot) (bid : BidRecord) : ResultBid where
  ctHash := slot.ctHash
  position := slot.position
  name := bid.name
  amountMinor := bid.amountMinor
  meetsReserve := rules.reserveMinor.all fun r : Int => r ≤ bid.amountMinor
  withinMaximum := rules.maximumMinor.all fun m : Int => bid.amountMinor ≤ m
  sealedContact := bid.contact
  bidIn := bid.origin

def readSlot (id : Text) (rules : Rules) (acc : List ResultBid × List Discarded) (slot : RevealSlot) :
    List ResultBid × List Discarded :=
  if slot.isDummy then acc
  else
    match decodeBid slot.payload with
    | none => (acc.1, acc.2 ++ [⟨slot.ctHash, .unreadable⟩])
    | some bid =>
      if bid.auctionId ≠ id then (acc.1, acc.2 ++ [⟨slot.ctHash, .otherAuction⟩])
      else (acc.1 ++ [resultBid rules slot bid], acc.2)

def results (id : Text) (rules : Rules) (slots : List RevealSlot) : AuctionResults :=
  let read := slots.foldl (readSlot id rules) ([], [])
  let bids := read.1.insertionSort (Ranked ResultBid.amountMinor ResultBid.position)
  let queue := bids.filter fun b => b.meetsReserve && b.withinMaximum
  ⟨bids, queue, queue.head?, slots.countP RevealSlot.isDummy, read.2⟩

structure ResultsJson where
  status : PublicStatus
  board : Option (Text × Int × AuctionResults)

/-- Before the auction has opened there is no board. -/
def getResults (cfg : Config) (origin : Text) (db : Database) (id : Text) : Except Problem ResultsJson := do
  let auction ← auctionJson cfg origin db id
  if auction.round.status ≠ .opened then return ⟨auction.round.status, none⟩
  let slots := ((db.reveals id).map Reveal.payloadsBlob).getD []
  return ⟨.opened, some (auction.rules.currency, auction.rules.decimals, results id auction.rules slots)⟩

/-- A bid without the contact only the seller reads. -/
def ResultBid.entry (b : ResultBid) : Live.BoardEntry where
  position := b.position
  ctHash := b.ctHash
  name := b.name
  amountMinor := b.amountMinor
  origin := b.bidIn
  meetsReserve := b.meetsReserve
  withinCap := b.withinMaximum

end Peal.Coordinator

namespace Peal.Live
open Peal.Coordinator (results resultBid readSlot AuctionResults ResultBid Discarded)

section Statement

/-- What the coordinator serves of an opened round. -/
structure Served (slots : List RevealSlot) : Prop where
  hashes : (slots.map RevealSlot.ctHash).Nodup
  positions : (slots.map RevealSlot.position).Nodup
  dummies : ∀ slot ∈ slots, slot.isDummy = true → isPadding slot.payload = true

/-- The terms are those of the auction with this id and these rules. -/
structure Terms.Of (terms : Terms) (id : Text) (rules : Rules) : Prop where
  auctionId : terms.auctionId = id
  reserve : terms.reserveMinor = rules.reserveMinor
  maximum : terms.maxMinor = rules.maximumMinor

/-- The same bids in the same order, the same queue and the same winner. -/
def Agree (r : AuctionResults) (b : Board) : Prop :=
  r.bids.map ResultBid.entry = b.bids ∧ r.queue.map ResultBid.entry = b.queue ∧
    r.winner.map ResultBid.entry = b.winner

def Board.Same (b b' : Board) : Prop :=
  b.bids = b'.bids ∧ b.queue = b'.queue ∧ b.winner = b'.winner ∧ b.padding = b'.padding ∧
    b.discarded.Perm b'.discarded

def Same (r r' : AuctionResults) : Prop :=
  r.bids = r'.bids ∧ r.queue = r'.queue ∧ r.winner = r'.winner ∧ r.decoys = r'.decoys ∧
    r.discarded.Perm r'.discarded

/-- No bid for this auction begins its id or its name with a byte order mark, and none names a marked copy of it. -/
def Unmarked (id : Text) (payload : Bytes) : Prop :=
  ∀ bid ∈ Coordinator.decodeBid payload, bid.auctionId ≠ Utf8.bom :: id ∧
    (bid.auctionId = id → bid.auctionId.head? ≠ some Utf8.bom ∧ bid.name.head? ≠ some Utf8.bom)

end Statement

section Proof

/-! ### Ranking -/

variable {α β : Type}

section Rank

variable {amount position : α → Nat}

instance : Std.Total (Ranked amount position) where
  total a b := by
    unfold Ranked
    omega

instance : IsTrans α (Ranked amount position) where
  trans a b c hab hbc := by
    unfold Ranked at hab hbc ⊢
    omega

lemma ranked_perm {xs ys : List α} (h : xs.Perm ys)
    (hposition : ∀ a ∈ xs, ∀ b ∈ xs, position a = position b → a = b) :
    xs.insertionSort (Ranked amount position) = ys.insertionSort (Ranked amount position) := by
  refine Rows.insertionSort_perm h fun a ha b hb hab hba => hposition a ha b hb ?_
  unfold Ranked at hab hba
  omega

end Rank

/-! ### What one slot contributes -/

lemma filterMap_key_inj {γ : Type} {slots : List α} {f : α → Option β} {key : α → γ} {key' : β → γ}
    (hnodup : (slots.map key).Nodup) (hf : ∀ slot b, f slot = some b → key' b = key slot) :
    ∀ a ∈ slots.filterMap f, ∀ b ∈ slots.filterMap f, key' a = key' b → a = b := by
  intro a ha b hb heq
  obtain ⟨slot, hslot, hsa⟩ := List.mem_filterMap.mp ha
  obtain ⟨slot', hslot', hsb⟩ := List.mem_filterMap.mp hb
  rw [hf _ _ hsa, hf _ _ hsb] at heq
  obtain rfl := List.inj_on_of_nodup_map hnodup hslot hslot' heq
  exact Option.some.inj (hsa.symm.trans hsb)

lemma filterMap_perm_iff {γ : Type} {slots : List α} {f g : α → Option β} {key : α → γ} {key' : β → γ}
    (hnodup : (slots.map key).Nodup) (hf : ∀ slot b, f slot = some b → key' b = key slot)
    (hg : ∀ slot b, g slot = some b → key' b = key slot) :
    (slots.filterMap f).Perm (slots.filterMap g) ↔ ∀ slot ∈ slots, f slot = g slot := by
  constructor
  · intro h slot hslot
    have hlift : ∀ {f g : α → Option β}, (∀ slot b, f slot = some b → key' b = key slot) →
        (∀ slot b, g slot = some b → key' b = key slot) → (slots.filterMap f).Perm (slots.filterMap g) →
          ∀ b, f slot = some b → g slot = some b := by
      intro f g hf hg h b hb
      have hmem : b ∈ slots.filterMap f := List.mem_filterMap.mpr ⟨slot, hslot, hb⟩
      obtain ⟨slot', hslot', hb'⟩ := List.mem_filterMap.mp (h.mem_iff.mp hmem)
      have hkey : key slot = key slot' := (hf _ _ hb).symm.trans (hg _ _ hb')
      obtain rfl := List.inj_on_of_nodup_map hnodup hslot hslot' hkey
      exact hb'
    exact Option.ext fun b => ⟨hlift hf hg h b, hlift hg hf h.symm b⟩
  · intro h
    rw [List.filterMap_congr h]

/-- The bid of a slot, as the coordinator reads it. -/
def resultOf (id : Text) (rules : Rules) (slot : RevealSlot) : Option ResultBid :=
  if slot.isDummy then none
  else ((Coordinator.decodeBid slot.payload).filter fun bid => bid.auctionId = id).map (resultBid rules slot)

/-- The bid of a slot, as the page reads it. -/
def entryOf (terms : Terms) (slot : RevealSlot) : Option BoardEntry :=
  if isPadding slot.payload then none
  else ((decodeBid slot.payload).filter fun bid => bid.auctionId = terms.auctionId).map (boardEntry terms slot)

def reasonOf (id : Text) : Option BidRecord → Option DiscardReason
  | none => some .unreadable
  | some bid => if bid.auctionId = id then none else some .otherAuction

def discardedOf (id : Text) (slot : RevealSlot) : Option Discarded :=
  if slot.isDummy then none else (reasonOf id (Coordinator.decodeBid slot.payload)).map (Discarded.mk slot.ctHash)

def discardedSlotOf (terms : Terms) (slot : RevealSlot) : Option DiscardedSlot :=
  if isPadding slot.payload then none
  else (reasonOf terms.auctionId (decodeBid slot.payload)).map (DiscardedSlot.mk slot.position slot.ctHash)

variable {id : Text} {rules : Rules} {terms : Terms} {slots slots' : List RevealSlot}

lemma foldl_readSlot (acc : List ResultBid × List Discarded) :
    slots.foldl (readSlot id rules) acc =
      (acc.1 ++ slots.filterMap (resultOf id rules), acc.2 ++ slots.filterMap (discardedOf id)) := by
  induction slots generalizing acc with
  | nil => simp only [List.foldl_nil, List.filterMap_nil, List.append_nil]
  | cons slot slots ih =>
    rw [List.foldl_cons, ih, readSlot, List.filterMap_cons, List.filterMap_cons, resultOf, discardedOf]
    by_cases hdummy : slot.isDummy
    · simp only [if_pos hdummy]
    · simp only [if_neg hdummy]
      cases hbid : Coordinator.decodeBid slot.payload with
      | none => simp [reasonOf]
      | some bid =>
        by_cases hid : bid.auctionId = id
        · simp [reasonOf, hid, Option.filter]
        · simp [reasonOf, hid, Option.filter]

lemma foldl_scanSlot (scan : Scan) (hnodup : (slots.map RevealSlot.ctHash).Nodup)
    (hseen : ∀ slot ∈ slots, slot.ctHash ∉ scan.seen) :
    slots.foldl (scanSlot terms) scan =
      { seen := (slots.map RevealSlot.ctHash).reverse ++ scan.seen
        bids := scan.bids ++ slots.filterMap (entryOf terms)
        padding := scan.padding + slots.countP fun slot => isPadding slot.payload
        discarded := scan.discarded ++ slots.filterMap (discardedSlotOf terms) } := by
  induction slots generalizing scan with
  | nil => simp
  | cons slot slots ih =>
    rw [List.map_cons, List.nodup_cons] at hnodup
    have hnew : ∀ scan' : Scan, scan'.seen = slot.ctHash :: scan.seen →
        ∀ slot' ∈ slots, slot'.ctHash ∉ scan'.seen := by
      intro scan' heq slot' hmem
      rw [heq, List.mem_cons, not_or]
      refine ⟨fun hsame => hnodup.1 ?_, hseen slot' (List.mem_cons_of_mem _ hmem)⟩
      exact hsame ▸ List.mem_map_of_mem hmem
    rw [List.foldl_cons, scanSlot, if_neg (hseen slot List.mem_cons_self), List.filterMap_cons, List.filterMap_cons,
      List.countP_cons, entryOf, discardedSlotOf]
    by_cases hpadding : isPadding slot.payload
    · simp only [if_pos hpadding]
      rw [ih _ hnodup.2 (hnew _ rfl)]
      simp [Nat.add_assoc, Nat.add_comm]
    · simp only [if_neg hpadding]
      cases hbid : decodeBid slot.payload with
      | none =>
        dsimp only
        rw [ih _ hnodup.2 (hnew _ rfl)]
        simp [reasonOf]
      | some bid =>
        by_cases hid : bid.auctionId = terms.auctionId
        · simp only [hid, ne_eq, not_true_eq_false, if_false]
          rw [ih _ hnodup.2 (hnew _ rfl)]
          simp [reasonOf, hid, Option.filter]
        · simp only [hid, ne_eq, not_false_eq_true, if_true]
          rw [ih _ hnodup.2 (hnew _ rfl)]
          simp [reasonOf, hid, Option.filter]

lemma results_bids : (results id rules slots).bids =
    (slots.filterMap (resultOf id rules)).insertionSort (Ranked ResultBid.amountMinor ResultBid.position) := by
  simp only [results, foldl_readSlot, List.nil_append]

lemma results_discarded : (results id rules slots).discarded = slots.filterMap (discardedOf id) := by
  simp only [results, foldl_readSlot, List.nil_append]

lemma scan_served (h : Served slots) :
    slots.foldl (scanSlot terms) ⟨[], [], 0, []⟩ =
      { seen := (slots.map RevealSlot.ctHash).reverse ++ []
        bids := slots.filterMap (entryOf terms)
        padding := slots.countP fun slot => isPadding slot.payload
        discarded := slots.filterMap (discardedSlotOf terms) } := by
  rw [foldl_scanSlot _ h.hashes fun _ _ => List.not_mem_nil, List.nil_append, List.nil_append, Nat.zero_add]

lemma buildBoard_bids (h : Served slots) : (buildBoard slots terms).bids =
    (slots.filterMap (entryOf terms)).insertionSort (Ranked BoardEntry.amountMinor BoardEntry.position) := by
  simp only [buildBoard, scan_served h]

lemma buildBoard_discarded (h : Served slots) :
    (buildBoard slots terms).discarded = slots.filterMap (discardedSlotOf terms) := by
  simp only [buildBoard, scan_served h]

lemma buildBoard_padding (h : Served slots) :
    (buildBoard slots terms).padding = slots.countP fun slot => isPadding slot.payload := by
  simp only [buildBoard, scan_served h]

lemma resultOf_eq_some {slot : RevealSlot} {b : ResultBid} (h : resultOf id rules slot = some b) :
    b.ctHash = slot.ctHash ∧ b.position = slot.position := by
  rw [resultOf] at h
  split_ifs at h
  obtain ⟨bid, -, rfl⟩ := Option.map_eq_some_iff.mp h
  exact ⟨rfl, rfl⟩

lemma entryOf_eq_some {slot : RevealSlot} {b : BoardEntry} (h : entryOf terms slot = some b) :
    b.ctHash = slot.ctHash ∧ b.position = slot.position := by
  rw [entryOf] at h
  split_ifs at h
  obtain ⟨bid, -, rfl⟩ := Option.map_eq_some_iff.mp h
  exact ⟨rfl, rfl⟩

/-! ### The order of the slots -/

lemma Served.perm (h : Served slots) (hperm : slots'.Perm slots) : Served slots' where
  hashes := (hperm.map RevealSlot.ctHash).nodup_iff.mpr h.hashes
  positions := (hperm.map RevealSlot.position).nodup_iff.mpr h.positions
  dummies slot hslot := h.dummies slot (hperm.mem_iff.mp hslot)

lemma results_perm (h : Served slots) (hperm : slots'.Perm slots) :
    Same (results id rules slots') (results id rules slots) := by
  have hbids : (results id rules slots').bids = (results id rules slots).bids := by
    rw [results_bids, results_bids]
    refine ranked_perm (hperm.filterMap _) ?_
    exact filterMap_key_inj (h.perm hperm).positions fun slot b hb => (resultOf_eq_some hb).2
  have hqueue : (results id rules slots').queue = (results id rules slots).queue :=
    congrArg (List.filter fun b : ResultBid => b.meetsReserve && b.withinMaximum) hbids
  refine ⟨hbids, hqueue, congrArg List.head? hqueue, hperm.countP_eq RevealSlot.isDummy, ?_⟩
  rw [results_discarded, results_discarded]
  exact hperm.filterMap _

lemma buildBoard_perm (h : Served slots) (hperm : slots'.Perm slots) :
    (buildBoard slots' terms).Same (buildBoard slots terms) := by
  have h' := h.perm hperm
  have hbids : (buildBoard slots' terms).bids = (buildBoard slots terms).bids := by
    rw [buildBoard_bids h, buildBoard_bids h']
    refine ranked_perm (hperm.filterMap _) ?_
    exact filterMap_key_inj h'.positions fun slot b hb => (entryOf_eq_some hb).2
  have hqueue : (buildBoard slots' terms).queue = (buildBoard slots terms).queue :=
    congrArg (List.filter fun b : BoardEntry => b.meetsReserve && b.withinCap) hbids
  refine ⟨hbids, hqueue, congrArg List.head? hqueue, ?_, ?_⟩
  · rw [buildBoard_padding h, buildBoard_padding h']
    exact hperm.countP_eq _
  · rw [buildBoard_discarded h, buildBoard_discarded h']
    exact hperm.filterMap _

/-! ### The two boards -/

lemma map_entry_sort (bids : List ResultBid) :
    (bids.insertionSort (Ranked ResultBid.amountMinor ResultBid.position)).map ResultBid.entry =
      (bids.map ResultBid.entry).insertionSort (Ranked BoardEntry.amountMinor BoardEntry.position) :=
  List.map_insertionSort _ _ _ _ fun _ _ _ _ => Iff.rfl

lemma agree_iff_bids {id : Text} :
    Agree (results id rules slots) (buildBoard slots terms) ↔
      (results id rules slots).bids.map ResultBid.entry = (buildBoard slots terms).bids := by
  refine ⟨fun h => h.1, fun h => ?_⟩
  have hqueue : (results id rules slots).queue.map ResultBid.entry = (buildBoard slots terms).queue := by
    change _ = (buildBoard slots terms).bids.filter fun b => b.meetsReserve && b.withinCap
    rw [← h, List.filter_map]
    rfl
  refine ⟨h, hqueue, ?_⟩
  change (results id rules slots).queue.head?.map ResultBid.entry = (buildBoard slots terms).queue.head?
  rw [← hqueue, List.head?_map]

lemma agree_iff_slots (h : Served slots) :
    Agree (results id rules slots) (buildBoard slots terms) ↔
      ∀ slot ∈ slots, (resultOf id rules slot).map ResultBid.entry = entryOf terms slot := by
  have hresult : ∀ (slot : RevealSlot) b, (resultOf id rules slot).map ResultBid.entry = some b →
      b.ctHash = slot.ctHash ∧ b.position = slot.position := by
    intro slot b hb
    obtain ⟨r, hr, rfl⟩ := Option.map_eq_some_iff.mp hb
    exact resultOf_eq_some hr
  have hhash : ∀ slot b, (resultOf id rules slot).map ResultBid.entry = some b →
      BoardEntry.ctHash b = RevealSlot.ctHash slot := fun slot b hb => (hresult slot b hb).1
  have hentry : ∀ slot b, entryOf terms slot = some b → BoardEntry.ctHash b = RevealSlot.ctHash slot :=
    fun slot b hb => (entryOf_eq_some hb).1
  rw [agree_iff_bids, results_bids, buildBoard_bids h, map_entry_sort, List.map_filterMap,
    ← filterMap_perm_iff h.hashes hhash hentry]
  constructor
  · intro heq
    have hperm := List.perm_insertionSort (Ranked BoardEntry.amountMinor BoardEntry.position)
      (slots.filterMap fun slot => (resultOf id rules slot).map ResultBid.entry)
    rw [heq] at hperm
    exact hperm.symm.trans (List.perm_insertionSort _ _)
  · intro hperm
    refine ranked_perm hperm ?_
    exact filterMap_key_inj h.positions fun slot b hb => (hresult slot b hb).2

lemma decodeBid_padding {payload : Bytes} (h : isPadding payload = true) : Coordinator.decodeBid payload = none := by
  obtain ⟨rest, rfl⟩ := List.isPrefixOf_iff_prefix.mp h
  have hhead : (PADDING_MARKER ++ rest).head? = some 0x42 := rfl
  unfold Coordinator.decodeBid decodeBidWith
  rw [hhead]
  rfl

lemma dropBom_eq_iff {s t : Text} (hne : s ≠ t) : Utf8.dropBom s = t ↔ s = Utf8.bom :: t := by
  cases s with
  | nil => exact iff_of_false hne (List.cons_ne_nil _ _).symm
  | cons c s =>
    rw [Utf8.dropBom]
    split_ifs with hc
    · rw [hc, List.cons.injEq, and_iff_right rfl]
    · exact iff_of_false hne fun h => hc (List.cons.inj h).1

lemma slot_agrees_iff (hterms : terms.Of id rules) {slot : RevealSlot} (hreal : slot.isDummy = false) :
    (resultOf id rules slot).map ResultBid.entry = entryOf terms slot ↔ Unmarked id slot.payload := by
  rw [resultOf, if_neg (by simp [hreal]), entryOf, decodeBid_eq, hterms.auctionId]
  by_cases hpadding : isPadding slot.payload
  · rw [if_pos hpadding, Unmarked, decodeBid_padding hpadding]
    exact iff_of_true rfl fun bid hbid => nomatch hbid
  rw [if_neg hpadding, Unmarked]
  cases hbid : Coordinator.decodeBid slot.payload with
  | none => exact iff_of_true rfl fun bid hbid => nomatch hbid
  | some bid =>
    simp only [Option.map_some, Option.mem_def, Option.some.injEq, forall_eq']
    have hrow : (resultBid rules slot bid).entry = boardEntry terms slot bid := by
      simp only [resultBid, ResultBid.entry, boardEntry, hterms.reserve, hterms.maximum]
    by_cases hid : bid.auctionId = id
    · subst hid
      have hmark : bid.auctionId ≠ Utf8.bom :: bid.auctionId := (List.cons_ne_self _ _).symm
      simp only [Option.filter_some, decide_true, if_true, Option.map_some, hrow]
      rw [and_iff_right hmark, forall_true_left, ← Utf8.dropBom_eq_self, ← Utf8.dropBom_eq_self]
      by_cases hkept : Utf8.dropBom bid.auctionId = bid.auctionId
      · simp [BidRecord.unmark, hkept, boardEntry, eq_comm]
      · simp [BidRecord.unmark, hkept]
    · have hkept : Utf8.dropBom bid.auctionId = id ↔ bid.auctionId = Utf8.bom :: id := dropBom_eq_iff hid
      simp [BidRecord.unmark, Option.filter_some, hid, hkept]

/-- The two boards agree on every reveal without byte order marks, and on no other. -/
theorem boards_agree_iff (hserved : Served slots) (hterms : terms.Of id rules) :
    (Agree (results id rules slots) (buildBoard slots terms) ∧
        ∀ slots', slots'.Perm slots → Same (results id rules slots') (results id rules slots) ∧
          (buildBoard slots' terms).Same (buildBoard slots terms)) ↔
      ∀ slot ∈ slots, slot.isDummy = false → Unmarked id slot.payload := by
  have horder : ∀ slots', slots'.Perm slots → Same (results id rules slots') (results id rules slots) ∧
      (buildBoard slots' terms).Same (buildBoard slots terms) :=
    fun slots' hperm => ⟨results_perm hserved hperm, buildBoard_perm hserved hperm⟩
  rw [and_iff_left horder, agree_iff_slots hserved]
  refine forall_congr' fun slot => forall_congr' fun hslot => ?_
  cases hdummy : slot.isDummy with
  | false => exact (slot_agrees_iff hterms hdummy).trans ⟨fun h _ => h, fun h => h rfl⟩
  | true =>
    refine iff_of_true ?_ fun h => nomatch h
    rw [resultOf, if_pos hdummy, entryOf, if_pos (hserved.dummies slot hslot hdummy)]
    rfl

/-- A record of the second version without a contact. -/
def plainRecord (amount : Nat) (auctionId name : Bytes) : Bytes :=
  let used := [RECORD_V2, 0, 0, 0, 0, 0, 0, 0, amount, auctionId.length] ++ auctionId ++ [name.length] ++ name ++ [0]
  used ++ List.replicate (RECORD_BYTES_V2 - used.length) 0

def sampleRules : Rules := ⟨['U'], 2, none, none, none⟩

def sampleTerms : Terms := ⟨['a'], ['t'], ['U'], 2, 1, none, none, none, none, none⟩

def sampleSlots (first : Bytes) : List RevealSlot :=
  [⟨0, ['x'], false, true, first⟩, ⟨1, ['y'], false, true, plainRecord 5 [97] [98]⟩,
    ⟨2, ['z'], true, true, PADDING_MARKER⟩]

lemma sampleSlots_served (first : Bytes) : Served (sampleSlots first) where
  hashes := by
    change [['x'], ['y'], ['z']].Nodup
    decide
  positions := by
    change [0, 1, 2].Nodup
    decide
  dummies slot hslot hdummy := by
    simp only [sampleSlots, List.mem_cons, List.not_mem_nil, or_false] at hslot
    rcases hslot with rfl | rfl | rfl
    · cases hdummy
    · cases hdummy
    · decide

theorem boards_agree_sample :
    (Agree (results ['a'] sampleRules (sampleSlots (plainRecord 7 [97] [99])))
        (buildBoard (sampleSlots (plainRecord 7 [97] [99])) sampleTerms) ∧
      ∀ slots', slots'.Perm (sampleSlots (plainRecord 7 [97] [99])) →
        Same (results ['a'] sampleRules slots') (results ['a'] sampleRules (sampleSlots (plainRecord 7 [97] [99]))) ∧
          (buildBoard slots' sampleTerms).Same (buildBoard (sampleSlots (plainRecord 7 [97] [99])) sampleTerms)) ↔
      ∀ slot ∈ sampleSlots (plainRecord 7 [97] [99]), slot.isDummy = false → Unmarked ['a'] slot.payload :=
  boards_agree_iff (sampleSlots_served _) ⟨rfl, rfl, rfl⟩

/-- A bid for a marked copy of the id wins on the page and is another auction's bid to the coordinator. -/
theorem boards_differ :
    Served (sampleSlots (plainRecord 7 [0xEF, 0xBB, 0xBF, 97] [99])) ∧ sampleTerms.Of ['a'] sampleRules ∧
      (results ['a'] sampleRules (sampleSlots (plainRecord 7 [0xEF, 0xBB, 0xBF, 97] [99]))).winner.map
          ResultBid.ctHash = some ['y'] ∧
        (buildBoard (sampleSlots (plainRecord 7 [0xEF, 0xBB, 0xBF, 97] [99])) sampleTerms).winner.map
          BoardEntry.ctHash = some ['x'] := by
  refine ⟨sampleSlots_served _, ⟨rfl, rfl, rfl⟩, ?_, ?_⟩
  · decide +kernel
  · decide +kernel

end Proof

end Peal.Live
