import Peal.Links.Crediting

namespace Peal.Links
open Peal.Fallible Peal.Programs Peal.Programs.Prog Peal.Runs

/-! # What depositors are told agrees with the ledger -/

namespace Books

variable {c : Crypto} {b b' : Books} {l' : Ledger}

/-- The rows of the product store have the ledger's own keys, and no row of the ledger is later than its last
envelope. -/
structure Kept (b : Books) : Prop where
  dated : b.ledger.Dated
  keyed : ∀ row ∈ b.product.intents, row.receipt = frToHex row.intent.receipt
  unique : ∀ row ∈ b.product.intents, ∀ row' ∈ b.product.intents, row.receipt = row'.receipt → row = row'

/-- The part of the agreement that is about the intents. -/
structure IntentsAgree (b : Books) : Prop where
  minted : ∀ row ∈ b.product.intents, ∀ depositId position,
    (row.status = .minted ∧ row.depositId = some depositId ∧ row.position = some position) ↔
      b.ledger.MintedAt row.intent.receipt depositId position
  placed : ∀ row ∈ b.product.intents, row.status = .minted →
    ∃ depositId position, row.depositId = some depositId ∧ row.position = some position

/-- The part of the agreement that is about the deposits. -/
def ObservedAgrees (b : Books) : Prop :=
  ∀ row ∈ b.product.observed, row.status = .credited ↔ b.ledger.credited row.depositId = true

lemma agree_iff : b.Agree ↔ b.ObservedAgrees ∧ b.IntentsAgree :=
  ⟨fun h => ⟨h.credited, h.minted, h.placed⟩, fun h => ⟨h.1, h.2.minted, h.2.placed⟩⟩

lemma Kept.find (h : b.Kept) {row : IntentRow} (hrow : row ∈ b.product.intents) :
    b.product.intentRow (frToHex row.intent.receipt) = some row := by
  unfold Product.intentRow
  cases hfound : b.product.intents.find? fun r => r.receipt = frToHex row.intent.receipt with
  | none =>
    have hnot := List.find?_eq_none.mp hfound row hrow
    simp [h.keyed row hrow] at hnot
  | some row' =>
    have hkey := List.find?_some hfound
    rw [decide_eq_true_eq, ← h.keyed row hrow] at hkey
    rw [h.unique row' (List.mem_of_find?_eq_some hfound) row hrow hkey]

lemma find_mem {receipt : Text} {row : IntentRow} (h : b.product.intentRow receipt = some row) :
    row ∈ b.product.intents ∧ row.receipt = receipt :=
  ⟨List.mem_of_find?_eq_some h, by simpa using List.find?_some h⟩

section Observed

lemma mem_observe {s : Product} {row r : ObservedDeposit} (h : r ∈ (s.observe row).observed) :
    r = row ∨ r ∈ s.observed ∧ r.depositId ≠ row.depositId ∨
      r.depositId = row.depositId ∧ r.status = row.status := by
  unfold Product.observe at h
  dsimp only at h
  split_ifs at h with hany
  · obtain ⟨old, hold, rfl⟩ := List.mem_map.mp h
    by_cases heq : old.depositId = row.depositId
    · rw [if_pos heq]
      exact .inr (.inr ⟨heq, rfl⟩)
    · rw [if_neg heq]
      exact .inr (.inl ⟨hold, heq⟩)
  · rcases List.mem_append.mp h with hold | hnew
    · refine .inr (.inl ⟨hold, fun heq => hany ?_⟩)
      exact List.any_eq_true.mpr ⟨r, hold, decide_eq_true heq⟩
    · exact .inl (List.mem_singleton.mp hnew)

lemma observedAgrees_observe {s : Product} {row : ObservedDeposit}
    (h : ∀ r ∈ s.observed, r.depositId ≠ row.depositId → (r.status = .credited ↔ l'.credited r.depositId = true))
    (hrow : row.status = .credited ↔ l'.credited row.depositId = true) : ObservedAgrees ⟨s.observe row, l'⟩ := by
  intro r hr
  rcases mem_observe hr with rfl | ⟨hold, hother⟩ | ⟨hid, hstatus⟩
  · exact hrow
  · exact h r hold hother
  · show r.status = .credited ↔ l'.credited r.depositId = true
    rw [hid, hstatus]
    exact hrow

end Observed

section Mints

variable {row : IntentRow} {depositId : Text} {r : Applied}

lemma mem_markMinted {s : Product} {receipt : Text} {position : Nat} {row' : IntentRow}
    (h : row' ∈ (s.markMinted receipt depositId position).intents) :
    ∃ old ∈ s.intents, row'.receipt = old.receipt ∧ row'.intent = old.intent ∧
      (old.receipt = receipt ∧
          row' = { old with status := .minted, depositId := some depositId, position := some position } ∨
        old.receipt ≠ receipt ∧ row' = old) := by
  obtain ⟨old, hold, rfl⟩ := List.mem_map.mp h
  by_cases hkey : old.receipt = receipt
  · rw [if_pos hkey]
    exact ⟨old, hold, rfl, rfl, .inl ⟨hkey, rfl⟩⟩
  · rw [if_neg hkey]
    exact ⟨old, hold, rfl, rfl, .inr ⟨hkey, rfl⟩⟩

lemma Kept.markMinted (h : b.Kept) (hdated : l'.Dated) (receipt : Text) (position : Nat) :
    Kept ⟨b.product.markMinted receipt depositId position, l'⟩ := by
  refine ⟨hdated, ?_, ?_⟩
  · intro row hrow
    obtain ⟨old, hold, hreceipt, hintent, -⟩ := mem_markMinted hrow
    rw [hreceipt, hintent]
    exact h.keyed old hold
  · intro row hrow row' hrow' heq
    obtain ⟨old, hold, hreceipt, -, hcase⟩ := mem_markMinted hrow
    obtain ⟨old', hold', hreceipt', -, hcase'⟩ := mem_markMinted hrow'
    obtain rfl := h.unique old hold old' hold' (hreceipt.symm.trans (heq.trans hreceipt'))
    rcases hcase with ⟨hkey, rfl⟩ | ⟨hkey, rfl⟩ <;> rcases hcase' with ⟨hkey', rfl⟩ | ⟨hkey', rfl⟩
    · rfl
    · exact absurd hkey hkey'
    · exact absurd hkey' hkey
    · rfl

lemma IntentsAgree.markMinted (hkept : b.Kept) (h : b.IntentsAgree)
    (hfound : b.product.intentRow (frToHex row.intent.receipt) = some row) (hpending : row.status = .pending)
    (hmint : b.ledger.mint c ⟨row.intent, depositId⟩ = .ok (l', r)) :
    IntentsAgree ⟨b.product.markMinted (frToHex row.intent.receipt) depositId r.position, l'⟩ := by
  obtain ⟨hrow, hkey⟩ := find_mem hfound
  obtain ⟨-, -, heffect⟩ := Ledger.mint_effect hkept.dated hmint
  have hfresh : ∀ depositId position, ¬b.ledger.MintedAt row.intent.receipt depositId position := by
    intro depositId position hminted
    have hstatus := ((h.minted row hrow depositId position).mpr hminted).1
    rw [hpending] at hstatus
    cases hstatus
  refine ⟨?_, ?_⟩
  · intro row' hrow' depositId' position'
    show _ ↔ l'.MintedAt _ _ _
    rw [heffect]
    obtain ⟨old, hold, -, -, ⟨hold_key, rfl⟩ | ⟨hother, rfl⟩⟩ := mem_markMinted hrow'
    · obtain rfl := hkept.unique old hold row hrow (hold_key.trans hkey.symm)
      constructor
      · rintro ⟨-, hid, hposition⟩
        exact .inr ⟨rfl, (Option.some.inj hid).symm, (Option.some.inj hposition).symm⟩
      · rintro (hminted | ⟨-, rfl, rfl⟩)
        · exact absurd hminted (hfresh _ _)
        · exact ⟨rfl, rfl, rfl⟩
    · rw [h.minted row' hold depositId' position']
      refine (or_iff_left ?_).symm
      rintro ⟨hreceipt, -, -⟩
      have hreceipt : row'.intent.receipt = row.intent.receipt := hreceipt
      exact hother (by rw [hkept.keyed row' hold, hreceipt])
  · intro row' hrow' hstatus
    obtain ⟨old, hold, -, -, ⟨-, rfl⟩ | ⟨-, rfl⟩⟩ := mem_markMinted hrow'
    · exact ⟨_, _, rfl, rfl⟩
    · exact h.placed row' hold hstatus

lemma IntentsAgree.mint {env : MintEnvelope} (hkept : b.Kept) (h : b.IntentsAgree)
    (hnone : b.product.intentRow (frToHex env.intent.receipt) = none) (hmint : b.ledger.mint c env = .ok (l', r)) :
    IntentsAgree { b with ledger := l' } := by
  obtain ⟨-, -, heffect⟩ := Ledger.mint_effect hkept.dated hmint
  refine ⟨fun row' hrow' depositId' position' => ?_, h.placed⟩
  show _ ↔ l'.MintedAt _ _ _
  rw [heffect, h.minted row' hrow' depositId' position']
  refine (or_iff_left ?_).symm
  rintro ⟨hreceipt, -, -⟩
  rw [← hreceipt, hkept.find hrow'] at hnone
  cases hnone

lemma ObservedAgrees.mint {env : MintEnvelope} (hkept : b.Kept) (h : b.ObservedAgrees)
    (hmint : b.ledger.mint c env = .ok (l', r)) :
    ∀ row ∈ b.product.observed, row.depositId ≠ env.depositId →
      (row.status = .credited ↔ l'.credited row.depositId = true) := by
  obtain ⟨-, heffect, -⟩ := Ledger.mint_effect hkept.dated hmint
  intro row hrow hother
  rw [heffect, h row hrow]
  exact (or_iff_left hother).symm

end Mints

section Steps

variable {a : Answers} {ns : NamespaceConfig} {fate : MintFate} {namespaceId circuitId : Nat}

/-- The ledger accepts the mint. -/
def Accepts (c : Crypto) (b : Books) (env : MintEnvelope) : Prop := ∃ l r, b.ledger.mint c env = .ok (l, r)

/-- The request passes its checks and is about to be stored as a new intent. -/
structure Registers (c : Crypto) (namespaceId circuitId : Nat) (a : Answers) (b : Books) (intent : DepositIntent) :
    Prop where
  served : intent.namespaceId = namespaceId
  circuit : intent.circuitId = circuitId
  positive : intent.amount ≠ 0
  proved : ∃ proof, proofFromBytes c intent.proof = .ok proof ∧
    c.verify .deposit proof [intent.amount, intent.receipt] = true
  read : a.store .intentExists = .done ()
  absent : b.product.intentRow (frToHex intent.receipt) = none
  stored : a.store .insertIntent = .done ()

/-- What the ledger has done agrees with what is about to be recorded of a deposit. -/
structure OrderlyDeposit (c : Crypto) (ns : NamespaceConfig) (a : Answers) (fate : MintFate) (b : Books)
    (ev : DepositEvent) : Prop where
  unmatched : (∀ row, ¬Matched ns b ev row) →
    (Creditable ns ev → a.store (.intentOf (ev.depositId ns.chainId)) = .done ()) →
    a.store (.observe (ev.depositId ns.chainId)) = .done () → b.ledger.credited (ev.depositId ns.chainId) = false
  again : ∀ row, Matched ns b ev row → row.status = .minted → Reads a (ev.depositId ns.chainId) →
    a.store (.observe (ev.depositId ns.chainId)) = .done () → b.ledger.credited (ev.depositId ns.chainId) = true
  minted : ∀ row, Matched ns b ev row → row.status = .pending → Reads a (ev.depositId ns.chainId) →
    Accepts c b ⟨row.intent, ev.depositId ns.chainId⟩ → ¬Unprocessed fate →
    Completes a fate (ev.depositId ns.chainId) ∧ (a.store (.observe (ev.depositId ns.chainId)) = .done () ∨
      ∀ row ∈ b.product.observed, row.depositId ≠ ev.depositId ns.chainId)

/-- No step leaves a mint of the ledger without its row, takes a receipt's mint for the mint of another deposit, or
records a deposit or an intent after the ledger minted it elsewhere. -/
def Orderly (c : Crypto) (ns : NamespaceConfig) (namespaceId circuitId : Nat) (b : Books) : Action → Prop
  | .registerIntent a intent => Registers c namespaceId circuitId a b intent →
      ∀ depositId position, ¬b.ledger.MintedAt intent.receipt depositId position
  | .deposit a fate log => StorePlain a ∧ ∀ ev, log.removed = false → decodeDeposit log = .ok ev →
      OrderlyDeposit c ns a fate b ev
  | .devMint a fate receipt depositId => ∀ row, b.product.intentRow (frToHex receipt) = some row →
      row.status = .pending → a.store (.intentStatus depositId) = .done () → Accepts c b ⟨row.intent, depositId⟩ →
      ¬Unprocessed fate → Completes a fate depositId ∧ ∀ row ∈ b.product.observed, row.depositId ≠ depositId
  | .ledger envelope => ∀ env, envelope = .mint env → Accepts c b env →
      b.product.intentRow (frToHex env.intent.receipt) = none ∧
        ∀ row ∈ b.product.observed, row.depositId ≠ env.depositId
  | .restart => True

lemma registerIntent_ends (c : Crypto) (namespaceId circuitId : Nat) (a : Answers) (b : Books) (intent : DepositIntent) :
    Triple (fun s => s = b.product) (registerIntent a c namespaceId circuitId intent) fun _ s => s = b.product ∨
      Registers c namespaceId circuitId a b intent ∧
        s = b.product.insertIntent ⟨frToHex intent.receipt, intent, .pending, none, none⟩ := by
  have hend : ∀ p : Problem, Triple (fun s => s = b.product) (fail p : Prog Product Problem Unit) fun _ s =>
      s = b.product ∨ Registers c namespaceId circuitId a b intent ∧
        s = b.product.insertIntent ⟨frToHex intent.receipt, intent, .pending, none, none⟩ :=
    fun p => ⟨fun s hs => .inl hs⟩
  have hasked : ∀ op, Triple (fun s => s = b.product)
      (rescue (answer (a.store op)) fun e => fail (.internal e) : Prog Product Problem Unit)
      fun o s => s = b.product ∧ ∀ u, o = .done u → a.store op = .done () := by
    intro op
    apply triple_rescue (Q := fun o s => s = b.product ∧ o = a.store op)
    · exact ⟨fun s hs => ⟨hs, rfl⟩⟩
    · exact fun u s hs => ⟨hs.1, fun _ _ => hs.2.symm⟩
    · exact fun e => ⟨fun s hs => ⟨hs.1, fun _ => nofun⟩⟩
    · exact fun s hs => ⟨hs.1, fun _ => nofun⟩
  unfold registerIntent
  by_cases hserved : intent.namespaceId = namespaceId
  case neg => rw [if_pos hserved]; exact hend _
  rw [if_neg (not_not_intro hserved)]
  by_cases hcircuit : intent.circuitId = circuitId
  case neg => rw [if_pos hcircuit]; exact hend _
  rw [if_neg (not_not_intro hcircuit)]
  by_cases hpositive : intent.amount = 0
  case pos => rw [if_pos hpositive]; exact hend _
  rw [if_neg hpositive]
  cases hproof : proofFromBytes c intent.proof with
  | error e => exact hend _
  | ok proof =>
    dsimp only
    cases hverify : c.verify .deposit proof [intent.amount, intent.receipt] with
    | false => rw [if_pos rfl]; exact hend _
    | true =>
      rw [if_neg (by decide)]
      apply triple_bind (hasked _) _ (fun e s hs => .inl hs.1) (fun s hs => .inl hs.1)
      intro u
      apply triple_get
      rintro s ⟨rfl, hread⟩
      cases hrow : b.product.intentRow (frToHex intent.receipt) with
      | some row => exact ⟨fun t ht => .inl ht⟩
      | none =>
        apply triple_bind (hasked _) _ (fun e s hs => .inl hs.1) (fun s hs => .inl hs.1)
        intro u'
        constructor
        rintro t ⟨rfl, hstored⟩
        exact .inr ⟨⟨hserved, hcircuit, hpositive, ⟨proof, hproof, hverify⟩, hread u rfl, hrow, hstored u' rfl⟩, rfl⟩

lemma kept_insertIntent {intent : DepositIntent} (h : b.Kept)
    (habsent : b.product.intentRow (frToHex intent.receipt) = none) :
    Kept { b with product := b.product.insertIntent ⟨frToHex intent.receipt, intent, .pending, none, none⟩ } := by
  have hnew : ∀ row ∈ b.product.intents, row.receipt ≠ frToHex intent.receipt := by
    intro row hrow hkey
    have hnot := List.find?_eq_none.mp habsent row hrow
    simp [hkey] at hnot
  refine ⟨h.dated, ?_, ?_⟩
  · intro row hrow
    rcases List.mem_append.mp hrow with hold | hlast
    · exact h.keyed row hold
    · obtain rfl := List.mem_singleton.mp hlast
      rfl
  · intro row hrow row' hrow' heq
    rcases List.mem_append.mp hrow with hold | hlast <;> rcases List.mem_append.mp hrow' with hold' | hlast'
    · exact h.unique row hold row' hold' heq
    · obtain rfl := List.mem_singleton.mp hlast'
      exact absurd heq (hnew row hold)
    · obtain rfl := List.mem_singleton.mp hlast
      exact absurd heq.symm (hnew row' hold')
    · rw [List.mem_singleton.mp hlast, List.mem_singleton.mp hlast']

/-- What every step keeps. -/
def Sound (b : Books) : Prop := b.Kept ∧ b.Agree

lemma Sound.registerIntent {intent : DepositIntent} (h : b.Sound)
    (hok : Orderly c ns namespaceId circuitId b (.registerIntent a intent)) :
    Sound { b with product := (Links.registerIntent a c namespaceId circuitId intent b.product).2 } := by
  rcases (registerIntent_ends c namespaceId circuitId a b intent).ends b.product rfl with hsame | ⟨hregisters, hinsert⟩
  · rw [hsame]
    exact h
  · rw [hinsert]
    obtain ⟨hkept, hagree⟩ := h
    refine ⟨kept_insertIntent hkept hregisters.absent, hagree.credited, ?_, ?_⟩
    · intro row hrow depositId position
      rcases List.mem_append.mp hrow with hold | hlast
      · exact hagree.minted row hold depositId position
      · obtain rfl := List.mem_singleton.mp hlast
        refine iff_of_false ?_ (hok hregisters _ _)
        rintro ⟨hstatus, -, -⟩
        cases hstatus
    · intro row hrow hstatus
      rcases List.mem_append.mp hrow with hold | hlast
      · exact hagree.placed row hold hstatus
      · obtain rfl := List.mem_singleton.mp hlast
        cases hstatus

lemma Sound.ledger {envelope : Envelope} {r : Applied} (h : b.Sound)
    (hok : Orderly c ns namespaceId circuitId b (.ledger envelope))
    (ht : b.ledger.transition c envelope = .ok (l', r)) : Sound { b with ledger := l' } := by
  obtain ⟨hkept, hagree⟩ := h
  by_cases hmint : ∃ env, envelope = .mint env
  · obtain ⟨env, rfl⟩ := hmint
    obtain ⟨hnone, hunseen⟩ := hok env rfl ⟨l', r, ht⟩
    obtain ⟨hobserved, hintents⟩ := agree_iff.mp hagree
    refine ⟨⟨(Ledger.mint_effect hkept.dated ht).1, hkept.keyed, hkept.unique⟩, agree_iff.mpr ⟨?_, ?_⟩⟩
    · exact fun row hrow => hobserved.mint hkept ht row hrow (hunseen row hrow)
    · exact hintents.mint hkept hnone ht
  · have hother : Ledger.Envelope.NoMint envelope := by
      cases envelope with
      | mint env => exact hmint ⟨env, rfl⟩
      | register env => trivial
      | op env => trivial
    obtain ⟨hdated, hcredited, hminted⟩ := Ledger.other_effect hkept.dated hother ht
    refine ⟨⟨hdated, hkept.keyed, hkept.unique⟩, ?_, ?_, hagree.placed⟩
    · intro row hrow
      show _ ↔ l'.credited _ = true
      rw [hcredited]
      exact hagree.credited row hrow
    · intro row hrow depositId position
      show _ ↔ l'.MintedAt _ _ _
      rw [hminted]
      exact hagree.minted row hrow depositId position

lemma Sound.minted {row : IntentRow} {depositId : Text} {r : Applied} {receipt : Text} (h : b.Sound)
    (hfound : b.product.intentRow receipt = some row) (hpending : row.status = .pending)
    (hmint : b.ledger.mint c ⟨row.intent, depositId⟩ = .ok (l', r)) :
    Kept ⟨b.product.markMinted receipt depositId r.position, l'⟩ ∧
      IntentsAgree ⟨b.product.markMinted receipt depositId r.position, l'⟩ ∧
      ∀ row ∈ b.product.observed, row.depositId ≠ depositId →
        (row.status = .credited ↔ l'.credited row.depositId = true) := by
  obtain ⟨hkept, hagree⟩ := h
  obtain ⟨hobserved, hintents⟩ := agree_iff.mp hagree
  obtain ⟨hrow, hkey⟩ := find_mem hfound
  obtain rfl : receipt = frToHex row.intent.receipt := hkey.symm.trans (hkept.keyed row hrow)
  exact ⟨hkept.markMinted (Ledger.mint_effect hkept.dated hmint).1 _ _,
    hintents.markMinted hkept hfound hpending hmint, hobserved.mint hkept hmint⟩

lemma Sound.devMint {receipt : Fr} {depositId : Text} (h : b.Sound)
    (hok : Orderly c ns namespaceId circuitId b (.devMint a fate receipt depositId)) :
    Sound (creditIntent c a fate receipt depositId b).2 := by
  have hend := (creditIntent_ends c a fate receipt depositId b).ends b rfl
  revert hend
  generalize (creditIntent c a fate receipt depositId b).1 = o
  generalize (creditIntent c a fate receipt depositId b).2 = s
  intro hend
  cases hend with
  | refused => exact h
  | again => exact h
  | crashed => exact h
  | lost row l r hfound hpending hread hmint hincomplete hprocessed =>
    exact absurd (hok row hfound hpending hread ⟨l, r, hmint⟩ hprocessed).1 hincomplete
  | minted row l r hfound hpending hread hmint hcomplete =>
    obtain ⟨hkept, hintents, hobserved⟩ := h.minted hfound hpending hmint
    have hanswered : ¬Unprocessed fate := by
      rw [hcomplete.1]
      simp [Unprocessed]
    have hunseen := (hok row hfound hpending hread ⟨l, r, hmint⟩ hanswered).2
    exact ⟨hkept, agree_iff.mpr ⟨fun row hrow => hobserved row hrow (hunseen row hrow), hintents⟩⟩

lemma Sound.observe {row : ObservedDeposit} (h : b.Sound)
    (hrow : row.status = .credited ↔ b.ledger.credited row.depositId = true) :
    Sound { b with product := b.product.observe row } := by
  obtain ⟨hkept, hagree⟩ := h
  exact ⟨⟨hkept.dated, hkept.keyed, hkept.unique⟩,
    agree_iff.mpr ⟨observedAgrees_observe (fun r hr _ => hagree.credited r hr) hrow, ⟨hagree.minted, hagree.placed⟩⟩⟩

lemma judged_sound {ev : DepositEvent} {o : Outcome Text (Option DepositStatus)} (h : b.Sound)
    (hok : OrderlyDeposit c ns a fate b ev) (hend : JudgeEnd c a ns fate ev b o b') :
    ((∀ status, o ≠ .done (some status)) → b'.Sound) ∧ ∀ status, o = .done (some status) →
      (a.store (.observe (ev.depositId ns.chainId)) = .done () →
        Sound { b' with product := b'.product.observe ⟨ev.depositId ns.chainId, ev.receiptHex, ev.amount, ev.sender,
          ev.token, ev.blockNumber, status⟩ }) ∧
      (a.store (.observe (ev.depositId ns.chainId)) ≠ .done () → b'.Sound) := by
  cases hend with
  | unmatched status hother hunmatched hread =>
    refine ⟨fun hnone => absurd rfl (hnone status), fun status' heq => ⟨fun hstored => ?_, fun _ => h⟩⟩
    obtain rfl := Option.some.inj (Outcome.done.inj heq)
    apply h.observe
    dsimp only
    rw [hok.unmatched hunmatched hread hstored]
    exact iff_of_false hother Bool.false_ne_true
  | again hwhy =>
    refine ⟨fun hnone => absurd rfl (hnone .credited), fun status' heq => ⟨fun hstored => ?_, fun _ => h⟩⟩
    obtain rfl := Option.some.inj (Outcome.done.inj heq)
    apply h.observe
    refine iff_of_true rfl ?_
    rcases hwhy with hcredited | ⟨row, hmatched, hminted, hreads⟩
    · exact hcredited
    · exact hok.again row hmatched hminted hreads hstored
  | nothing _ hnone => exact ⟨fun _ => h, fun status heq => absurd heq (hnone status)⟩
  | lost row l r hmatched hpending hreads hmint hincomplete hprocessed =>
    exact absurd (hok.minted row hmatched hpending hreads ⟨l, r, hmint⟩ hprocessed).1 hincomplete
  | minted row l r hmatched hpending hreads hmint hcomplete =>
    obtain ⟨hkept, hintents, hobserved⟩ := h.minted hmatched.found hpending hmint
    have hanswered : ¬Unprocessed fate := by
      rw [hcomplete.1]
      simp [Unprocessed]
    have hrecord := (hok.minted row hmatched hpending hreads ⟨l, r, hmint⟩ hanswered).2
    refine ⟨fun hnone => absurd rfl (hnone .credited), fun status heq => ⟨fun _ => ?_, fun hlost => ?_⟩⟩
    · obtain rfl := Option.some.inj (Outcome.done.inj heq)
      refine ⟨⟨hkept.dated, hkept.keyed, hkept.unique⟩, agree_iff.mpr ⟨?_, hintents.minted, hintents.placed⟩⟩
      apply observedAgrees_observe hobserved
      refine iff_of_true rfl ?_
      exact ((Ledger.mint_effect h.1.dated hmint).2.1 _).mpr (.inr rfl)
    · have hunseen := hrecord.resolve_left hlost
      exact ⟨hkept, agree_iff.mpr ⟨fun row hrow => hobserved row hrow (hunseen row hrow), hintents⟩⟩

lemma Sound.deposit {log : Log} (h : b.Sound) (hok : Orderly c ns namespaceId circuitId b (.deposit a fate log)) :
    Sound (scanDeposit c a ns fate log b).2 := by
  obtain ⟨hplain, hok⟩ := hok
  have hend : Triple (fun s => s = b) (scanDeposit c a ns fate log) fun _ s => s.Sound := by
    unfold scanDeposit
    by_cases hremoved : log.removed = true
    · rw [if_pos hremoved]
      exact ⟨fun s hs => hs ▸ h⟩
    rw [if_neg hremoved]
    cases hev : decodeDeposit log with
    | error e => exact ⟨fun s hs => hs ▸ h⟩
    | ok ev =>
      have hsound := fun {o s} => @judged_sound c b s a ns fate ev o h (hok ev (Bool.eq_false_of_not_eq_true hremoved) hev)
      apply triple_bind (judge_ends hplain hev)
      · intro status
        cases status with
        | none => exact ⟨fun s hs => (hsound hs).1 (by simp)⟩
        | some status =>
          dsimp only
          apply triple_bind (R := fun o s =>
            JudgeEnd c a ns fate ev b (.done (some status)) s ∧ o = a.store (.observe (ev.depositId ns.chainId)))
          · exact ⟨fun s hs => ⟨hs, rfl⟩⟩
          · exact fun u => ⟨fun s hs => ((hsound hs.1).2 status rfl).1 hs.2.symm⟩
          · exact fun e s hs => ((hsound hs.1).2 status rfl).2 (by rw [← hs.2]; simp)
          · exact fun s hs => ((hsound hs.1).2 status rfl).2 (by rw [← hs.2]; simp)
      · exact fun e s hs => (hsound hs).1 (by simp)
      · exact fun s hs => (hsound hs).1 (by simp)
  exact hend.ends b rfl

theorem step_sound {action : Action} (h : b.Sound) (hok : Orderly c ns namespaceId circuitId b action)
    (hstep : step c ns namespaceId circuitId b action = .ok b') : b'.Sound := by
  cases action with
  | registerIntent a intent =>
    obtain rfl := Except.ok.inj hstep
    exact h.registerIntent hok
  | deposit a fate log =>
    obtain rfl := Except.ok.inj hstep
    exact h.deposit hok
  | devMint a fate receipt depositId =>
    obtain rfl := Except.ok.inj hstep
    exact h.devMint hok
  | ledger envelope =>
    unfold step at hstep
    cases ht : b.ledger.transition c envelope with
    | error e =>
      simp only [ht] at hstep
      cases hstep
    | ok out =>
      simp only [ht] at hstep
      obtain rfl := Except.ok.inj hstep
      exact h.ledger hok ht
  | restart =>
    obtain rfl := Except.ok.inj hstep
    exact h

lemma sound_start (c : Crypto) (inst : Instance) (cfg : LedgerConfig) : (start c inst cfg).Sound := by
  refine ⟨⟨⟨?_, ?_⟩, ?_, ?_⟩, ?_, ?_, ?_⟩ <;> intro _ h <;> exact absurd h List.not_mem_nil

/-- In every run of registrations, deposits, mints, failures and crashes whose steps are all orderly, what is
recorded of deposits and intents agrees with the ledger throughout. -/
theorem deposits_agree (c : Crypto) (ns : NamespaceConfig) (namespaceId circuitId : Nat) (inst : Instance)
    (cfg : LedgerConfig) {actions : List Action}
    (hok : Along (step c ns namespaceId circuitId) (Orderly c ns namespaceId circuitId) (start c inst cfg) actions) :
    Throughout (step c ns namespaceId circuitId) Agree (start c inst cfg) actions := by
  have hsound : Throughout (step c ns namespaceId circuitId) Sound (start c inst cfg) actions :=
    throughout_along _ (fun _ _ _ => step_sound) (sound_start c inst cfg) hok
  exact fun n => (hsound n).2

end Steps

section Sample

def depositStep : Books → Action → Except Problem Books := step sampleCrypto sampleConfig 5 9

def depositStart : Books := start sampleCrypto sampleInstance ⟨5, 9, 4⟩

def answersAll : Answers := sampleAnswers 11 (.done 0)

lemma answersAll_plain : StorePlain answersAll := fun _ _ h => nomatch h

/-- An intent and the deposit for it. -/
def depositRun (fate : MintFate) : List Action :=
  [.registerIntent answersAll sampleIntent, .deposit answersAll fate sampleLog]

/-- Another deposit of the same amount for the same receipt comes after the first. -/
def secondRun : List Action :=
  depositRun .answered ++ [.deposit answersAll .answered { sampleLog with transactionHash := "0xac".toList }]

/-- The wait for the mint ends before its answer, and the watcher comes to the deposit once more. -/
def lostRun : List Action := depositRun (.timedOut true) ++ [.deposit answersAll .answered sampleLog]

def registeredBooks : Books := exec depositStep depositStart [.registerIntent answersAll sampleIntent]

lemma registeredBooks_orderly :
    OrderlyDeposit sampleCrypto sampleConfig answersAll .answered registeredBooks sampleEvent where
  unmatched _ _ _ := by decide +kernel
  again row h hminted _ _ := by
    have hpending : ∀ row ∈ registeredBooks.product.intents, row.status = .pending := by decide +kernel
    have hstatus := hpending row (find_mem h.found).1
    rw [hminted] at hstatus
    cases hstatus
  minted _ _ _ _ _ _ := ⟨⟨rfl, rfl⟩, .inl rfl⟩

/-- A deposit whose mint is answered. -/
theorem deposits_agree_sample : Throughout depositStep Agree depositStart (depositRun .answered) := by
  apply deposits_agree sampleCrypto sampleConfig 5 9 sampleInstance ⟨5, 9, 4⟩
  refine ⟨fun _ _ _ h => ?_, ⟨answersAll_plain, fun ev _ hev => ?_⟩, trivial⟩
  · obtain ⟨d, hd, -⟩ := h
    exact absurd hd List.not_mem_nil
  · obtain rfl := Except.ok.inj (hev.symm.trans sampleLog_decodes)
    exact registeredBooks_orderly

/-- A second deposit for a minted receipt is recorded as credited, and a mint whose answer was lost leaves its intent
pending. -/
theorem deposits_disagree :
    ¬Throughout depositStep Agree depositStart secondRun ∧ ¬Throughout depositStep Agree depositStart lostRun := by
  constructor
  · intro h
    have hlast := h 3
    rw [show secondRun.take 3 = secondRun from rfl] at hlast
    have hunminted : ∃ row ∈ (exec depositStep depositStart secondRun).product.observed, row.status = .credited ∧
        (exec depositStep depositStart secondRun).ledger.credited row.depositId = false := by
      decide +kernel
    obtain ⟨row, hrow, hstatus, hcredited⟩ := hunminted
    have hagree := (hlast.credited row hrow).mp hstatus
    rw [hcredited] at hagree
    cases hagree
  · intro h
    have hlast := h 3
    rw [show lostRun.take 3 = lostRun from rfl] at hlast
    have hpending : ∃ row ∈ (exec depositStep depositStart lostRun).product.intents, row.status = .pending ∧
        (exec depositStep depositStart lostRun).ledger.MintedAt row.intent.receipt
          (sampleEvent.depositId sampleConfig.chainId) 0 := by
      unfold Ledger.MintedAt
      decide +kernel
    obtain ⟨row, hrow, hstatus, hminted⟩ := hpending
    obtain ⟨hagree, -⟩ := (hlast.minted row hrow _ 0).mpr hminted
    rw [hstatus] at hagree
    cases hagree

end Sample

end Books

end Peal.Links
