import Mathlib.Data.Nat.Size
import Peal.Links.HexText
import Peal.Links.Settlement

namespace Peal.Links
open Peal.Fallible Peal.Runs Peal.Interleaving

/-! # What the nodes sign, and what the gateway releases for it -/

/-! ### What the texts of a message spell -/

lemma toDigit_ten {ch : Char} {v : Nat} (h : toDigit 10 ch = some v) : v = ch.toNat - '0'.toNat := by
  obtain ⟨hvalue, hlt⟩ := Option.filter_eq_some_iff.mp h
  have hlt := of_decide_eq_true hlt
  split_ifs at hvalue with hdigit hlower hupper
  · exact (Option.some.inj hvalue).symm
  · have := Option.some.inj hvalue
    omega
  · have := Option.some.inj hvalue
    omega

lemma parseU128Digits_value {s : Text} {v : Nat} (h : parseU128Digits s = some v) :
    v = Nat.ofDigitChars 10 s 0 := by
  suffices hall : ∀ acc, s.foldlM (fun acc ch => do
      let d ← toDigit 10 ch
      if acc * 10 + d < 2 ^ 128 then some (acc * 10 + d) else none) acc = some v →
        v = Nat.ofDigitChars 10 s acc from hall 0 h
  clear h
  induction s with
  | nil =>
    intro acc h
    rw [Nat.ofDigitChars_nil]
    exact (Option.some.inj h).symm
  | cons ch s ih =>
    intro acc h
    rw [List.foldlM_cons] at h
    obtain ⟨mid, hmid, hrest⟩ := Option.bind_eq_some_iff.mp h
    obtain ⟨v', hv', hfits⟩ := Option.bind_eq_some_iff.mp hmid
    obtain ⟨-, hsum⟩ := Option.ite_none_right_eq_some.mp hfits
    have hnext := ih mid hrest
    rw [hnext, Nat.ofDigitChars_cons, ← toDigit_ten hv', ← Option.some.inj hsum, Nat.mul_comm]

lemma parseU128_toDigits {n v : Nat} (h : parseU128 (Nat.toDigits 10 n) = some v) : v = n := by
  have hdigits : parseU128Digits (Nat.toDigits 10 n) = some v := by
    unfold parseU128 at h
    split at h
    · cases h
    · rename_i rest hplus
      have hdigit := Nat.isDigit_of_mem_toDigits (b := 10) (n := n) (c := '+') (by decide) (by decide)
        (by rw [hplus]; exact List.mem_cons_self)
      exact absurd hdigit (by decide)
    · exact h
  rw [parseU128Digits_value hdigits, Nat.ofDigitChars_ten_toDigits]

lemma hexDigit_ne_x {n : Nat} (h : n < 16) : hexDigit n ≠ 'x' := by
  have hall : ∀ d : Fin 16, hexDigit d ≠ 'x' := by decide
  exact hall ⟨n, h⟩

lemma trimHexPrefix_hexEncode {bytes : Bytes} (h : ∀ b ∈ bytes, b < 256) :
    trimHexPrefix (hexEncode bytes) = hexEncode bytes := by
  cases bytes with
  | nil => rfl
  | cons b bytes =>
    have hb := h b List.mem_cons_self
    have hne : hexDigit (b % 16) ≠ 'x' := hexDigit_ne_x (Nat.mod_lt b (by decide))
    show trimHexPrefix (hexDigit (b / 16) :: hexDigit (b % 16) :: hexEncode bytes) = _
    unfold trimHexPrefix
    split
    · rename_i rest heq
      exact absurd (List.cons.inj (List.cons.inj heq).2).1 hne
    · rfl

lemma wordHex_value {n : Nat} {bytes : Bytes} (h : hexDecode (trimHexPrefix (wordHex n)) = some bytes) :
    fromBeBytes bytes = n := by
  have hsmall : ∀ b ∈ (toLeBytes (max 32 ((n.size + 7) / 8)) n).reverse, b < 256 :=
    fun b hb => toLeBytes_lt _ n b (List.mem_reverse.mp hb)
  have hwide : n < 256 ^ max 32 ((n.size + 7) / 8) := by
    have hsize : n < 2 ^ n.size := Nat.lt_size_self n
    have hle : n.size ≤ 8 * max 32 ((n.size + 7) / 8) := by omega
    calc n < 2 ^ n.size := hsize
      _ ≤ 2 ^ (8 * max 32 ((n.size + 7) / 8)) := Nat.pow_le_pow_right (by decide) hle
      _ = 256 ^ max 32 ((n.size + 7) / 8) := Nat.pow_mul 2 8 _
  unfold wordHex at h
  rw [trimHexPrefix_hexEncode hsmall, hexDecode_hexEncode hsmall] at h
  rw [← Option.some.inj h]
  exact fromLeBytes_toLeBytes hwide

lemma wordAddress_toLowercase {addr : Text} (h : isEvmAddress addr = true) :
    wordAddress (toLowercase addr) = wordAddress addr := by
  obtain ⟨-, hbegins, hdigits⟩ := of_decide_eq_true h
  have hsplit : addr = '0' :: 'x' :: addr.drop 2 := by
    conv_lhs => rw [← List.take_append_drop 2 addr, hbegins]
    rfl
  have hlower : (toLowercase (addr.drop 2)).all (fun ch => (toDigit 16 ch).isSome) = true := by
    rw [toLowercase, List.all_map]
    simpa only [Function.comp_def, toDigit_toLower] using hdigits
  have htrim : trimHexPrefix addr = addr.drop 2 := by
    conv_lhs => rw [hsplit]
    rw [trimHexPrefix]
    exact trimHexPrefix_hex hdigits
  have htrimLower : trimHexPrefix (toLowercase addr) = toLowercase (addr.drop 2) := by
    conv_lhs => rw [hsplit]
    show trimHexPrefix ('0' :: 'x' :: toLowercase (addr.drop 2)) = _
    rw [trimHexPrefix]
    exact trimHexPrefix_hex hlower
  unfold wordAddress
  rw [htrim, htrimLower, hexDecode_toLowercase]

section Messages

variable {ch : Gateway.Chain} {m : WithdrawalMessage} {wd : Gateway.Withdrawal}

lemma digest_parts (hinj : Function.Injective ch.keccak256) {w w' : Gateway.Withdrawal} {domain domain' : Nat}
    (h : ch.keccak256 [0x1901, domain, ch.keccak256 [ch.withdrawalTypehash, w.chainId, w.gateway, w.token,
      w.recipient, w.amount, w.withdrawalId, w.epoch]] =
      ch.keccak256 [0x1901, domain', ch.keccak256 [ch.withdrawalTypehash, w'.chainId, w'.gateway, w'.token,
        w'.recipient, w'.amount, w'.withdrawalId, w'.epoch]]) : w = w' := by
  have hinner := hinj h
  simp only [List.cons.injEq, and_true, true_and] at hinner
  have hfields := hinj hinner.2
  simp only [List.cons.injEq, and_true, true_and] at hfields
  cases w
  cases w'
  simpa using hfields

lemma digest_ok {digest : Nat} (h : m.digest ch = .ok digest) :
    ∃ w, m.decode = .ok w ∧ ch.keccak256 [0x1901, WithdrawalMessage.domainSeparator ch w.chainId w.gateway,
      ch.keccak256 [ch.withdrawalTypehash, w.chainId, w.gateway, w.token, w.recipient, w.amount, w.withdrawalId,
        w.epoch]] = digest := by
  unfold WithdrawalMessage.digest at h
  simp only [bind_eq_ok, pure_eq_ok] at h
  exact h

lemma decode_of_digest (hinj : Function.Injective ch.keccak256)
    (h : m.digest ch = .ok (Gateway.PealLinksGateway.withdrawalDigest ch wd)) : m.decode = .ok wd := by
  obtain ⟨w, hw, hdigest⟩ := digest_ok h
  rw [hw, digest_parts hinj hdigest]

lemma decode_of_same_digest (hinj : Function.Injective ch.keccak256) {m' : WithdrawalMessage} {digest : Nat}
    (h : m.digest ch = .ok digest) (h' : m'.digest ch = .ok digest) :
    ∃ wd, m.decode = .ok wd ∧ m'.decode = .ok wd := by
  obtain ⟨w, hw, hdigest⟩ := digest_ok h
  obtain ⟨w', hw', hdigest'⟩ := digest_ok h'
  exact ⟨w, hw, digest_parts hinj (hdigest.trans hdigest'.symm) ▸ hw'⟩

lemma decode_ok (h : m.decode = .ok wd) :
    parseU128 m.amount = some wd.amount ∧ wordAddress m.recipient = .ok wd.recipient ∧ wd.epoch = m.epoch ∧
      ∃ wid, hexDecode (trimHexPrefix m.withdrawalId) = some wid ∧ fromBeBytes wid = wd.withdrawalId := by
  unfold WithdrawalMessage.decode at h
  simp only [bind_eq_ok, expect_eq_ok, require_eq_ok, pure_eq_ok] at h
  obtain ⟨amount, hamount, wid, hwid, -, -, gateway, -, token, -, recipient, hrecipient, rfl⟩ := h
  exact ⟨hamount, hrecipient, rfl, wid, hwid, rfl⟩

end Messages

variable {d : Deployment}

/-- A message whose texts are those of the claim. -/
structure Spells (d : Deployment) (claim : WithdrawalClaim) (m : WithdrawalMessage) : Prop where
  recipient : m.recipient = toLowercase claim.recipient
  amount : m.amount = Nat.toDigits 10 claim.opening.amount
  withdrawalId : m.withdrawalId = wordHex (withdrawalId d.chain claim.namespaceId claim.position)

lemma spells_messageFor (ns : NamespaceConfig) (claim : WithdrawalClaim) (epoch : Nat) :
    Spells d claim (messageFor d ns claim epoch) := ⟨rfl, rfl, rfl⟩

/-- A withdrawal pays the claim's amount to the claim's recipient, under the id of the claim's position. -/
structure Pays (d : Deployment) (claim : WithdrawalClaim) (wd : Gateway.Withdrawal) : Prop where
  amount : wd.amount = claim.opening.amount
  recipient : wordAddress claim.recipient = .ok wd.recipient
  withdrawalId : wd.withdrawalId = withdrawalId d.chain claim.namespaceId claim.position

lemma verify_ok {c : Crypto} {claim : WithdrawalClaim} (h : claim.verify c = .ok ()) :
    claim.opening.sender = claim.account ∧ claim.opening.receiver = withdrawReceiver c ∧
      isEvmAddress claim.recipient = true ∧ c.signed claim.pubkey claim.signingBytes claim.signature = true := by
  unfold WithdrawalClaim.verify at h
  simp only [bind_eq_ok, require_eq_ok] at h
  obtain ⟨-, ⟨hsender, hreceiver⟩, -, haddress, -, -, -, -, hsigned⟩ := h
  exact ⟨hsender, hreceiver, haddress, hsigned⟩

lemma Spells.pays {claim : WithdrawalClaim} {m : WithdrawalMessage} {wd : Gateway.Withdrawal}
    (h : Spells d claim m) (hclaim : claim.verify d.crypto = .ok ()) (hwd : m.decode = .ok wd) :
    Pays d claim wd := by
  obtain ⟨hamount, hrecipient, -, wid, hwid, hid⟩ := decode_ok hwd
  obtain ⟨-, -, haddress, -⟩ := verify_ok hclaim
  rw [h.amount] at hamount
  rw [h.recipient, wordAddress_toLowercase haddress] at hrecipient
  rw [h.withdrawalId] at hwid
  exact ⟨parseU128_toDigits hamount, hrecipient, hid.symm.trans (wordHex_value hwid)⟩

/-! ### What the ledgers keep -/

def HasLeaf (ledgers : Ledgers) (namespaceId : Namespace) (position : Nat) (leaf : Fr) : Prop :=
  ∃ l, ledgers namespaceId = some l ∧ l.tree.leaves[position]? = some leaf

lemma Ledger.logReceipt_leaves {c : Crypto} {l l' : Ledger} {receipt : Fr} (h : l.logReceipt c receipt = .ok l') :
    l'.tree.leaves = l.tree.leaves ++ [receipt] := by
  obtain ⟨t, ht, rfl⟩ := Ledger.logReceipt_ok h
  obtain ⟨-, rfl⟩ := ReceiptTree.append_eq_ok.mp ht
  rfl

lemma Ledger.transition_leaves {c : Crypto} {l l' : Ledger} {envelope : Envelope} {r : Applied}
    (h : l.transition c envelope = .ok (l', r)) : l.tree.leaves <+: l'.tree.leaves := by
  cases envelope with
  | register env =>
    obtain ⟨a, row, root, -, -, -, rfl⟩ := Ledger.register_ok h
    exact List.prefix_refl l.tree.leaves
  | op env =>
    obtain ⟨-, m, root, position, hm, rfl⟩ := Ledger.apply_ok h
    exact ⟨[env.receipt], (Ledger.logReceipt_leaves hm).symm⟩
  | mint env =>
    obtain ⟨-, -, -, m, root, position, hm, rfl⟩ := Ledger.mint_ok h
    exact ⟨[env.intent.receipt], (Ledger.logReceipt_leaves hm).symm⟩

section Leaves

variable {c : Crypto} {ledgers ledgers' : Ledgers} {namespaceId : Namespace} {position : Nat} {leaf : Fr}

lemma HasLeaf.step (h : HasLeaf ledgers namespaceId position leaf) {tx : Tx}
    (hstep : txStep c ledgers tx = .ok ledgers') : HasLeaf ledgers' namespaceId position leaf := by
  obtain ⟨l, hl, hleaf⟩ := h
  obtain ⟨m, m', r, hm, htransition, rfl⟩ := txStep_ok hstep
  by_cases hns : namespaceId = tx.namespaceId
  · subst hns
    obtain rfl := Option.some.inj (hm.symm.trans hl)
    refine ⟨m', Function.update_self _ _ _, ?_⟩
    obtain ⟨more, hmore⟩ := Ledger.transition_leaves htransition
    rw [← hmore]
    exact List.getElem?_append_left (List.getElem?_eq_some_iff.mp hleaf).1 |>.trans hleaf
  · exact ⟨l, (Function.update_of_ne hns _ _).trans hl, hleaf⟩

lemma HasLeaf.exec {txs : List Tx} (h : HasLeaf ledgers namespaceId position leaf) :
    HasLeaf (exec (txStep c) ledgers txs) namespaceId position leaf :=
  exec_invariant (I := fun ledgers => HasLeaf ledgers namespaceId position leaf) (txStep c)
    (fun _ _ _ h hstep => h.step hstep) h txs

end Leaves

/-! ### What the network keeps -/

/-- The network goes forward: envelopes are finalized and digests attested, and none of either is taken back. -/
instance : Preorder Network where
  le s t := s.finalized <+: t.finalized ∧ ∀ n, (s.nodes n).attestations ⊆ (t.nodes n).attestations
  le_refl s := ⟨List.prefix_refl s.finalized, fun n => List.Subset.refl (s.nodes n).attestations⟩
  le_trans s t u h h' := ⟨h.1.trans h'.1, fun n => List.Subset.trans (h.2 n) (h'.2 n)⟩

/-- The ledgers over every envelope finalized so far. -/
def Network.latest (d : Deployment) (s : Network) : Ledgers := exec (txStep d.crypto) d.genesis s.finalized

/-- The owner signed the claim, and the ledger's log holds its burn receipt at its position. -/
structure Burned (d : Deployment) (s : Network) (claim : WithdrawalClaim) : Prop where
  owned : claim.verify d.crypto = .ok ()
  logged : HasLeaf (s.latest d) claim.namespaceId claim.position (receiptCommitment d.crypto claim.opening)

def Attests (s : Network) (n : NodeId) (namespaceId : Namespace) (position : Nat) (message : WithdrawalMessage)
    (digest : Nat) : Prop :=
  ⟨namespaceId, position, message.epoch, digest⟩ ∈ (s.nodes n).attestations

/-- The node attested the message for the position. -/
def Certifies (d : Deployment) (s : Network) (n : NodeId) (namespaceId : Namespace) (position : Nat)
    (message : WithdrawalMessage) : Prop :=
  ∃ digest, message.digest d.chain = .ok digest ∧ Attests s n namespaceId position message digest

/-- What a node checked of a signature it made. -/
structure Checked (d : Deployment) (s : Network) (x : Signed) : Prop where
  burned : Burned d s x.claim
  spells : Spells d x.claim x.message
  digest : x.message.digest d.chain = .ok x.digest
  attested : Attests s x.node x.claim.namespaceId x.claim.position x.message x.digest

def Attestation.key (a : Attestation) : Namespace × Nat × Nat := (a.namespaceId, a.position, a.epoch)

def SettledRow.key (r : SettledRow) : Namespace × Nat := (r.namespaceId, r.position)

/-- The attestations and the settled positions of every node are unique, and everything a node signed, stored or
answered was checked and attested first. -/
structure Attentive (d : Deployment) (s : Network) : Prop where
  attested : ∀ n, ((s.nodes n).attestations.map Attestation.key).Nodup
  settled : ∀ n, ((s.nodes n).withdrawals.map SettledRow.key).Nodup
  signed : ∀ x ∈ s.signed, Checked d s x
  stored : ∀ n, ∀ r ∈ (s.nodes n).withdrawals, Certifies d s n r.namespaceId r.position r.message
  answered : ∀ a ∈ s.answers, Certifies d s a.node a.claim.namespaceId a.claim.position a.certificate.message

section Order

variable {s t : Network} {n : NodeId}

lemma HasLeaf.later {namespaceId : Namespace} {position : Nat} {leaf : Fr}
    (h : HasLeaf (s.latest d) namespaceId position leaf) (hle : s ≤ t) :
    HasLeaf (t.latest d) namespaceId position leaf := by
  obtain ⟨more, hmore⟩ := hle.1
  unfold Network.latest
  rw [← hmore, exec_append]
  exact HasLeaf.exec h

lemma Burned.later {claim : WithdrawalClaim} (h : Burned d s claim) (hle : s ≤ t) : Burned d t claim :=
  ⟨h.owned, h.logged.later hle⟩

lemma Attests.later {namespaceId : Namespace} {position digest : Nat} {message : WithdrawalMessage}
    (h : Attests s n namespaceId position message digest) (hle : s ≤ t) :
    Attests t n namespaceId position message digest := hle.2 n h

lemma Certifies.later {namespaceId : Namespace} {position : Nat} {message : WithdrawalMessage}
    (h : Certifies d s n namespaceId position message) (hle : s ≤ t) :
    Certifies d t n namespaceId position message := by
  obtain ⟨digest, hdigest, hattested⟩ := h
  exact ⟨digest, hdigest, hattested.later hle⟩

lemma Checked.later {x : Signed} (h : Checked d s x) (hle : s ≤ t) : Checked d t x :=
  ⟨h.burned.later hle, h.spells, h.digest, h.attested.later hle⟩

lemma Attentive.unique (h : Attentive d s) {namespaceId : Namespace} {position epoch digest digest' : Nat}
    (hfirst : ⟨namespaceId, position, epoch, digest⟩ ∈ (s.nodes n).attestations)
    (hsecond : ⟨namespaceId, position, epoch, digest'⟩ ∈ (s.nodes n).attestations) : digest = digest' := by
  have hsame := List.inj_on_of_nodup_map (h.attested n) hfirst hsecond rfl
  exact congrArg Attestation.digest hsame

end Order

section Updates

variable {s : Network} {n : NodeId} {node : Node}

lemma Network.setNode_self : (s.setNode n node).nodes n = node := by
  unfold Network.setNode
  exact Function.update_self n node s.nodes

lemma Network.setNode_of_ne {m : NodeId} (h : m ≠ n) : (s.setNode n node).nodes m = s.nodes m := by
  unfold Network.setNode
  exact Function.update_of_ne h node s.nodes

lemma le_setNode (h : (s.nodes n).attestations ⊆ node.attestations) : s ≤ s.setNode n node := by
  refine ⟨List.prefix_refl s.finalized, fun m => ?_⟩
  by_cases hm : m = n
  · subst hm
    rw [Network.setNode_self]
    exact h
  · rw [Network.setNode_of_ne hm]
    exact List.Subset.refl (s.nodes m).attestations

lemma Attentive.setNode (h : Attentive d s) (hkeeps : (s.nodes n).attestations ⊆ node.attestations)
    (hattested : (node.attestations.map Attestation.key).Nodup)
    (hsettled : (node.withdrawals.map SettledRow.key).Nodup)
    (hstored : ∀ r ∈ node.withdrawals, Certifies d (s.setNode n node) n r.namespaceId r.position r.message) :
    Attentive d (s.setNode n node) := by
  have hle := le_setNode hkeeps
  refine ⟨fun m => ?_, fun m => ?_, fun x hx => (h.signed x hx).later hle, fun m r hr => ?_,
    fun a ha => (h.answered a ha).later hle⟩
  · by_cases hm : m = n
    · subst hm
      rw [Network.setNode_self]
      exact hattested
    · rw [Network.setNode_of_ne hm]
      exact h.attested m
  · by_cases hm : m = n
    · subst hm
      rw [Network.setNode_self]
      exact hsettled
    · rw [Network.setNode_of_ne hm]
      exact h.settled m
  · by_cases hm : m = n
    · subst hm
      rw [Network.setNode_self] at hr
      exact hstored r hr
    · rw [Network.setNode_of_ne hm] at hr
      exact (h.stored m r hr).later hle

lemma Attentive.mapRows (h : Attentive d s) {f : SettledRow → SettledRow}
    (hattestations : node.attestations = (s.nodes n).attestations)
    (hrows : node.withdrawals = (s.nodes n).withdrawals.map f) (hkey : ∀ r, (f r).key = r.key)
    (hmessage : ∀ r ∈ (s.nodes n).withdrawals, (f r).message = r.message ∨
      Certifies d s n r.namespaceId r.position (f r).message) : Attentive d (s.setNode n node) := by
  have hkeeps : (s.nodes n).attestations ⊆ node.attestations := hattestations ▸ List.Subset.refl _
  refine h.setNode hkeeps (hattestations ▸ h.attested n) ?_ fun r hr => ?_
  · rw [hrows, List.map_map]
    have hkeys : SettledRow.key ∘ f = SettledRow.key := funext hkey
    rw [hkeys]
    exact h.settled n
  · rw [hrows] at hr
    obtain ⟨r', hr', rfl⟩ := List.mem_map.mp hr
    obtain ⟨hns, hposition⟩ := Prod.ext_iff.mp (hkey r')
    have hcertified : Certifies d s n r'.namespaceId r'.position (f r').message := by
      rcases hmessage r' hr' with hsame | hnew
      · rw [hsame]
        exact h.stored n r' hr'
      · exact hnew
    have hlater := hcertified.later (le_setNode hkeeps)
    rwa [← (show (f r').namespaceId = r'.namespaceId from hns),
      ← (show (f r').position = r'.position from hposition)] at hlater

end Updates

/-! ### What each request relies on and leaves -/

section Requests

variable {s : Network} {n : NodeId}

lemma safe_reworded {ε ε' α : Type} {x : Request Outside Network ε α} {f : ε → ε'} {P : α → Network → Prop}
    (h : Safe (Attentive d) (Ends P) x.run s) : Safe (Attentive d) (Ends P) (reworded x f).run s :=
  safe_outcome h fun _ _ hr a ha => hr a (mapError_eq_ok.mp ha)

lemma safe_attempt {ε ε' α : Type} {x : Request Outside Network ε α} {P : α → Network → Prop}
    (h : Safe (Attentive d) (Ends P) x.run s) :
    Safe (Attentive d) (Ends fun r s => ∀ a, r = .ok a → P a s) (attempt x : Request Outside Network ε' _).run s :=
  safe_outcome h fun _ _ hr _ hb a ha => hr a ((Except.ok.inj hb).trans ha)

lemma safe_pathLeaf (namespaceId : Namespace) (position : Nat) :
    Safe (Attentive d) (Ends fun leaf s => HasLeaf (s.latest d) namespaceId position leaf)
      (pathLeaf d n namespaceId position).run s := by
  refine safe_read (fun _ _ => rfl) fun s' w leaf _ hleaf => ?_
  simp only [bind_eq_ok, mapError_eq_ok, expect_eq_ok] at hleaf
  obtain ⟨-, -, l, hl, hat⟩ := hleaf
  have hlatest : s'.latest d = exec (txStep d.crypto) (s'.ledgers d n) (s'.finalized.drop (s'.nodes n).applied) := by
    unfold Network.latest Network.ledgers
    rw [← exec_append, List.take_append_drop]
  rw [hlatest]
  exact HasLeaf.exec ⟨l, hl, hat⟩

lemma safe_accountOf (namespaceId : Namespace) (account : Fr) :
    Safe (Attentive d) (Ends fun _ _ => True) (accountOf d n namespaceId account).run s :=
  safe_read (fun _ _ => rfl) fun _ _ _ _ _ => trivial

theorem safe_policy (claim : WithdrawalClaim) :
    Safe (Attentive d) (Ends fun _ s => Burned d s claim) (SignerPolicy.check d n claim.namespaceId claim).run s := by
  unfold SignerPolicy.check
  refine safe_checked fun _ hverify => safe_checked fun _ _ => ?_
  refine safe_then (safe_pathLeaf _ _) fun leaf t _ hleaf => safe_checked fun _ hopening => ?_
  have hburned : Burned d t claim := by
    rw [require_eq_ok.mp hopening] at hleaf
    exact ⟨mapError_eq_ok.mp hverify, hleaf⟩
  refine safe_then (safe_accountOf _ _) fun account t' ht' _ => safe_checked fun _ _ => ?_
  exact safe_check fun _ _ => hburned.later ht'

lemma safe_gatewayEpoch : Safe (Attentive d) (Ends fun _ _ => True) gatewayEpoch.run s :=
  safe_read (fun _ _ => rfl) fun _ _ _ _ _ => trivial

/-- An attestation is made once, and stays. -/
theorem safe_attest (namespaceId : Namespace) (position digest : Nat) (message : WithdrawalMessage) :
    Safe (Attentive d) (Ends fun _ s => Attests s n namespaceId position message digest)
      (attest n namespaceId position message.epoch digest).run s := by
  refine safe_step fun s' w _ hI => ?_
  dsimp only
  cases w.store with
  | error e => exact ⟨le_refl s', hI, fun _ h => by cases h⟩
  | ok u =>
    cases hfound : (s'.nodes n).attestations.find? fun a =>
        a.namespaceId = namespaceId ∧ a.position = position ∧ a.epoch = message.epoch with
    | some prior =>
      dsimp only
      have hprior := List.find?_some hfound
      obtain ⟨hns, hposition, hepoch⟩ := of_decide_eq_true hprior
      by_cases hdigest : prior.digest = digest
      · rw [if_neg (not_not.mpr hdigest)]
        refine ⟨le_refl s', hI, fun _ _ => ?_⟩
        have hmem := List.mem_of_find?_eq_some hfound
        unfold Attests
        rwa [← hns, ← hposition, ← hepoch, ← hdigest]
      · rw [if_pos hdigest]
        exact ⟨le_refl s', hI, fun _ h => by cases h⟩
    | none =>
      dsimp only
      have hkeeps : (s'.nodes n).attestations ⊆
          (s'.nodes n).attestations ++ [⟨namespaceId, position, message.epoch, digest⟩] :=
        List.subset_append_left _ _
      refine ⟨le_setNode hkeeps, hI.setNode hkeeps ?_ (hI.settled n) ?_, fun _ _ => ?_⟩
      · rw [List.map_append, List.map_singleton, List.nodup_append]
        refine ⟨hI.attested n, List.nodup_singleton _, fun key hkey key' hkey' => ?_⟩
        obtain ⟨prior, hprior, rfl⟩ := List.mem_map.mp hkey
        rw [List.mem_singleton.mp hkey']
        intro hsame
        obtain ⟨hns, hrest⟩ := Prod.ext_iff.mp hsame
        obtain ⟨hposition, hepoch⟩ := Prod.ext_iff.mp hrest
        exact List.find?_eq_none.mp hfound prior hprior (decide_eq_true ⟨hns, hposition, hepoch⟩)
      · exact fun r hr => (hI.stored n r hr).later (le_setNode hkeeps)
      · dsimp only
        unfold Attests
        rw [Network.setNode_self]
        exact List.mem_append_right _ List.mem_cons_self

/-- A node signs what it checked and attested. -/
theorem safe_signDigest {claim : WithdrawalClaim} {message : WithdrawalMessage} {digest : Nat} (signer : Signer)
    (h : Checked d s ⟨n, signer.address, claim, message, digest⟩) :
    Safe (Attentive d) (Ends fun _ _ => True) (signDigest d n signer claim message digest).run s := by
  refine safe_step fun s' w hle hI => ?_
  cases d.signPrehash signer.key digest with
  | error e => exact ⟨le_refl s', hI, fun _ _ => trivial⟩
  | ok signature =>
    have hmoved : s' ≤ { s' with signed := s'.signed ++ [⟨n, signer.address, claim, message, digest⟩] } :=
      ⟨List.prefix_refl s'.finalized, fun m => List.Subset.refl (s'.nodes m).attestations⟩
    refine ⟨hmoved, { hI with signed := fun x hx => ?_ }, fun _ _ => trivial⟩
    rcases List.mem_append.mp hx with hold | hnew
    · exact (hI.signed x hold).later hmoved
    · rw [List.mem_singleton.mp hnew]
      exact (h.later hle).later hmoved

lemma safe_gatherRound {digest threshold : Nat} {members : List Nat} {collected : List (Nat × Signature)} :
    Safe (Attentive d) (Ends fun _ _ => True) (gatherRound d digest members threshold collected).run s := by
  unfold gatherRound
  split_ifs
  · exact safe_done trivial
  · exact safe_read (fun _ _ => rfl) fun _ _ _ _ _ => trivial

/-- Whoever certifies attests first. -/
theorem safe_certify {conf : NodeConfig} {committee : Committee} {claim : WithdrawalClaim}
    {message : WithdrawalMessage} {digest : Nat} (hburned : Burned d s claim) (hspells : Spells d claim message)
    (hdigest : message.digest d.chain = .ok digest) :
    Safe (Attentive d) (Ends fun _ s => Attests s n claim.namespaceId claim.position message digest)
      (committee.certify d n conf claim message digest).run s := by
  unfold Committee.certify
  refine safe_then (safe_reworded (safe_attest _ _ _ message)) fun _ t ht hattested => ?_
  have hchecked : ∀ (signer : Signer) (t' : Network), t ≤ t' →
      Checked d t' ⟨n, signer.address, claim, message, digest⟩ :=
    fun signer t' ht' => ⟨hburned.later (ht.trans ht'), hspells, hdigest, hattested.later ht'⟩
  cases committee with
  | fixture signers threshold =>
    have hall : Safe (Attentive d) (Ends fun _ _ => True) (signers.mapM fun signer => do
        let signature ← reworded (signDigest d n signer claim message digest) Problem.internal
        return (signer.address, signature)).run t :=
      safe_mapM fun signer _ t' ht' =>
        safe_then (safe_reworded (safe_signDigest signer (hchecked signer t' ht'))) fun _ _ _ _ => safe_done trivial
    exact safe_weaken hall fun _ t' ht' _ _ _ => hattested.later ht'
  | distributed localSigner members threshold =>
    refine safe_checked fun _ _ => ?_
    refine safe_then (safe_reworded (safe_signDigest localSigner (hchecked localSigner t (le_refl t))))
      fun signature t₁ h₁ _ => ?_
    refine safe_then safe_gatherRound fun collected t₂ h₂ _ => ?_
    refine safe_then safe_gatherRound fun collected' t₃ h₃ _ => safe_checked fun _ _ => ?_
    exact safe_done (hattested.later (h₁.trans (h₂.trans h₃)))

lemma safe_storedWithdrawal (claim : WithdrawalClaim) :
    Safe (Attentive d) (Ends fun row s => ∀ r ∈ row, Certifies d s n claim.namespaceId claim.position r.message)
      (storedWithdrawal n claim).run s := by
  refine safe_step fun s' w _ hI => ?_
  cases w.store with
  | error e => exact ⟨le_refl s', hI, fun _ h => by cases h⟩
  | ok u =>
    refine ⟨le_refl s', hI, fun row hrow r hr => ?_⟩
    have hfound := (Except.ok.inj hrow).trans hr
    have hkey := List.find?_some hfound
    obtain ⟨hns, hposition⟩ := of_decide_eq_true hkey
    rw [← hns, ← hposition]
    exact hI.stored n r (List.mem_of_find?_eq_some hfound)

lemma safe_replaceSettled {claim : WithdrawalClaim} {message : WithdrawalMessage} {signatures : List Signature}
    (h : Certifies d s n claim.namespaceId claim.position message) :
    Safe (Attentive d) (Ends fun _ _ => True) (replaceSettled n claim message signatures).run s := by
  refine safe_step fun s' w hle hI => ?_
  unfold recertified
  cases w.store with
  | error e => exact ⟨le_refl s', hI, fun _ _ => trivial⟩
  | ok u =>
    refine ⟨le_setNode (List.Subset.refl (s'.nodes n).attestations), hI.mapRows rfl rfl (fun r => ?_) fun r _ => ?_,
      fun _ _ => trivial⟩
    · split_ifs <;> rfl
    · split_ifs with hkey
      · rw [hkey.1, hkey.2]
        exact .inr (h.later hle)
      · exact .inl rfl

lemma safe_insertSettled {claim : WithdrawalClaim} {message : WithdrawalMessage} {signatures : List Signature}
    (h : Certifies d s n claim.namespaceId claim.position message) :
    Safe (Attentive d) (Ends fun _ _ => True) (insertSettled n claim message signatures).run s := by
  refine safe_step fun s' w hle hI => ?_
  dsimp only
  cases w.store with
  | error e => exact ⟨le_refl s', hI, fun _ _ => trivial⟩
  | ok u =>
    dsimp only
    split_ifs with hany
    · exact ⟨le_refl s', hI, fun _ _ => trivial⟩
    · have hkeeps : (s'.nodes n).attestations ⊆ (s'.nodes n).attestations := List.Subset.refl _
      refine ⟨le_setNode hkeeps, hI.setNode hkeeps (hI.attested n) ?_ fun r hr => ?_, fun _ _ => trivial⟩
      · rw [List.map_append, List.map_singleton, List.nodup_append]
        refine ⟨hI.settled n, List.nodup_singleton _, fun key hkey key' hkey' => ?_⟩
        obtain ⟨r, hr, rfl⟩ := List.mem_map.mp hkey
        rw [List.mem_singleton.mp hkey']
        intro hsame
        obtain ⟨hns, hposition⟩ := Prod.ext_iff.mp hsame
        exact hany (List.any_eq_true.mpr ⟨r, hr, decide_eq_true ⟨hns, .inl hposition⟩⟩)
      · rcases List.mem_append.mp hr with hold | hnew
        · exact (hI.stored n r hold).later (le_setNode hkeeps)
        · rw [List.mem_singleton.mp hnew]
          exact (h.later hle).later (le_setNode hkeeps)

theorem safe_certifyClaim {conf : NodeConfig} {ns : NamespaceConfig} {committee : Committee} {claim : WithdrawalClaim}
    {epoch : Nat} {recertify : Bool} :
    Safe (Attentive d) (Ends fun certificate s =>
        Certifies d s n claim.namespaceId claim.position certificate.message)
      (certifyClaim d n conf ns committee claim epoch recertify).run s := by
  unfold certifyClaim
  refine safe_then (safe_policy claim) fun _ t _ hburned => safe_checked fun digest hdigest => ?_
  have hdigest := mapError_eq_ok.mp hdigest
  refine safe_then (safe_certify hburned (spells_messageFor ns claim epoch) hdigest) fun signed t' _ hattested => ?_
  have hcertified : Certifies d t' n claim.namespaceId claim.position (messageFor d ns claim epoch) :=
    ⟨digest, hdigest, hattested⟩
  cases recertify with
  | true =>
    exact safe_then (safe_replaceSettled hcertified) fun _ t'' ht'' _ => safe_done (hcertified.later ht'')
  | false =>
    exact safe_then (safe_insertSettled hcertified) fun _ t'' ht'' _ => safe_done (hcertified.later ht'')

theorem safe_settle {conf : NodeConfig} {claim : WithdrawalClaim} :
    Safe (Attentive d) (Ends fun certificate s =>
        Certifies d s n claim.namespaceId claim.position certificate.message)
      (settle d n conf claim).run s := by
  unfold settle
  refine safe_checked fun ns _ => safe_checked fun _ _ => safe_checked fun committee _ => ?_
  refine safe_then (safe_reworded safe_gatewayEpoch) fun epoch t _ _ => ?_
  refine safe_then (safe_storedWithdrawal claim) fun row t' _ hrow => ?_
  cases row with
  | none => exact safe_certifyClaim
  | some row =>
    dsimp only
    split_ifs
    · exact safe_checked fun digest _ => safe_done (hrow row rfl)
    · exact safe_certifyClaim

lemma safe_checkPatiently (claim : WithdrawalClaim) (attempts : Nat) :
    Safe (Attentive d) (Ends fun _ s => Burned d s claim) (checkPatiently d n claim attempts).run s := by
  induction attempts generalizing s with
  | zero => exact safe_reworded (safe_policy claim)
  | succ attempts ih =>
    unfold checkPatiently
    refine safe_then (safe_attempt (safe_policy claim)) fun r t _ hr => ?_
    cases r with
    | ok u => exact safe_done (hr u rfl)
    | error p =>
      dsimp only
      split_ifs
      · exact ih
      · exact safe_fail

theorem safe_coSign {conf : NodeConfig} {localSigner : Signer} {req : SignRequest} :
    Safe (Attentive d) (Ends fun _ _ => True) (coSign d n conf localSigner req).run s := by
  unfold coSign
  refine safe_checked fun ns _ => safe_checked fun _ _ => ?_
  refine safe_then (safe_checkPatiently req.claim 12) fun _ t _ hburned => safe_checked fun _ hmatches => ?_
  obtain ⟨-, -, -, hrecipient, hamount, hid⟩ := require_eq_ok.mp hmatches
  refine safe_then (safe_reworded safe_gatewayEpoch) fun epoch t' ht' _ => ?_
  refine safe_checked fun _ _ => safe_checked fun digest hdigest => ?_
  refine safe_then (safe_attest _ _ _ req.message) fun _ t'' ht'' hattested => ?_
  exact safe_signDigest localSigner
    ⟨hburned.later (ht'.trans ht''), ⟨hrecipient, hamount, hid⟩, hdigest, hattested⟩

lemma safe_answer {claim : WithdrawalClaim} {certificate : Certificate}
    (h : Certifies d s n claim.namespaceId claim.position certificate.message) :
    Safe (Attentive d) (Ends fun _ _ => True) (Network.answer n claim certificate).run s := by
  refine safe_step fun s' w hle hI => ?_
  have hmoved : s' ≤ { s' with answers := s'.answers ++ [⟨n, claim, certificate⟩] } :=
    ⟨List.prefix_refl s'.finalized, fun m => List.Subset.refl (s'.nodes m).attestations⟩
  refine ⟨hmoved, ⟨hI.attested, hI.settled, fun x hx => (hI.signed x hx).later hmoved, hI.stored,
    fun a ha => ?_⟩, fun _ _ => trivial⟩
  rcases List.mem_append.mp ha with hold | hnew
  · exact (hI.answered a hold).later hmoved
  · rw [List.mem_singleton.mp hnew]
    exact (h.later hle).later hmoved

theorem safe_serve (t : Network) (r : SettlementRequest) :
    Safe (Attentive d) (fun _ _ => True) (t.serve d n r) s := by
  cases r with
  | settle claim =>
    refine safe_served (S := Ends fun _ _ => True) ?_
    exact safe_then safe_settle fun certificate t' _ hcertified => safe_answer hcertified
  | signForPeer req =>
    refine safe_bind (safe_weaken (Q := fun _ _ => True) ?_ fun _ _ _ _ => trivial)
    unfold signForPeer
    cases (t.nodes n).conf.committee.bind Committee.localSigner with
    | none => trivial
    | some localSigner =>
      refine safe_bind (safe_weaken (Q := Ends fun _ _ => True) safe_coSign fun r t' _ _ => ?_)
      cases r <;> trivial

end Requests

/-! ### What crashes and the outside leave -/

section Outside

variable {s t : Network} {n : NodeId}

lemma Attentive.beside (h : Attentive d s) (hle : s ≤ t) (hnodes : t.nodes = s.nodes) (hsigned : t.signed = s.signed)
    (hanswers : t.answers = s.answers) : Attentive d t where
  attested := hnodes ▸ h.attested
  settled := hnodes ▸ h.settled
  signed x hx := (h.signed x (hsigned ▸ hx)).later hle
  stored m r hr := (h.stored m r (hnodes ▸ hr)).later hle
  answered a ha := (h.answered a (hanswers ▸ ha)).later hle

lemma Attentive.sameTables {node : Node} (h : Attentive d s)
    (hattestations : node.attestations = (s.nodes n).attestations)
    (hrows : node.withdrawals = (s.nodes n).withdrawals) : Attentive d (s.setNode n node) :=
  h.mapRows (f := id) hattestations (hrows.trans (List.map_id _).symm) (fun _ => rfl) fun _ _ => .inl rfl

lemma reopen_attentive (r : Reopened) (h : Attentive d s) :
    s ≤ Network.reopen n r s ∧ Attentive d (Network.reopen n r s) :=
  ⟨le_setNode (List.Subset.refl (s.nodes n).attestations), h.sameTables rfl rfl⟩

lemma change_attentive {u : Change} (h : Attentive d s) (hu : s.change d u = .ok t) : s ≤ t ∧ Attentive d t := by
  cases u with
  | finalize tx =>
    obtain rfl := Except.ok.inj hu
    have hle : s ≤ { s with finalized := s.finalized ++ [tx] } :=
      ⟨List.prefix_append s.finalized [tx], fun m => List.Subset.refl (s.nodes m).attestations⟩
    exact ⟨hle, h.beside hle rfl rfl rfl⟩
  | apply m =>
    unfold Network.change at hu
    dsimp only at hu
    split_ifs at hu
    obtain rfl := Except.ok.inj hu
    exact ⟨le_setNode (List.Subset.refl (s.nodes m).attestations), h.sameTables rfl rfl⟩
  | call e =>
    obtain ⟨chain, -, rfl⟩ := exceptMap_eq_ok.mp hu
    have hle : s ≤ { s with chain := chain } :=
      ⟨List.prefix_refl s.finalized, fun m => List.Subset.refl (s.nodes m).attestations⟩
    exact ⟨hle, h.beside hle rfl rfl rfl⟩
  | confirm m namespaceId withdrawalId txHash =>
    obtain rfl := Except.ok.inj hu
    refine ⟨le_setNode (List.Subset.refl (s.nodes m).attestations), h.mapRows rfl rfl (fun r => ?_) fun r _ => .inl ?_⟩
    · split_ifs <;> rfl
    · split_ifs <;> rfl

end Outside

/-! ### What no request touches -/

/-- The store holds a confirmed withdrawal for a position. -/
def Confirmed (s : Network) (n : NodeId) (key : Namespace × Nat) : Prop :=
  ∃ r ∈ (s.nodes n).withdrawals, r.key = key ∧ r.status = .confirmed

/-- A step leaves the chain alone, and the confirmed withdrawals too unless it stores another certificate. -/
structure Tame (i : NodeId) (update : Outside → Network → Network) : Prop where
  chain : ∀ w s, (update w s).chain = s.chain
  confirmed : (∀ w s n key, Confirmed s n key → Confirmed (update w s) n key) ∨
    ∃ claim message signatures, update = fun w s => (recertified i claim message signatures w s).2

section Every

variable {n : NodeId}

lemma Confirmed.setNode {s : Network} {m : NodeId} {key : Namespace × Nat} {node : Node} (h : Confirmed s m key)
    (hrows : ∀ r ∈ (s.nodes n).withdrawals, r.status = .confirmed →
      ∃ r' ∈ node.withdrawals, r'.key = r.key ∧ r'.status = .confirmed) : Confirmed (s.setNode n node) m key := by
  by_cases hm : m = n
  · subst hm
    obtain ⟨r, hr, hkey, hstatus⟩ := h
    obtain ⟨r', hr', hkey', hstatus'⟩ := hrows r hr hstatus
    exact ⟨r', (Network.setNode_self (s := s)).symm ▸ hr', hkey'.trans hkey, hstatus'⟩
  · unfold Confirmed
    rw [Network.setNode_of_ne hm]
    exact h

lemma every_read {ε α : Type} {g : Outside → Network → Except ε α × Network} (h : ∀ w s, (g w s).2 = s) :
    Every (Tame n) (Request.step g).run :=
  every_step ⟨fun w s => by rw [h w s], .inl fun w s m key hkey => by rwa [h w s]⟩

lemma every_policy (namespaceId : Namespace) (claim : WithdrawalClaim) :
    Every (Tame n) (SignerPolicy.check d n namespaceId claim).run := by
  unfold SignerPolicy.check
  refine every_checked fun _ => every_checked fun _ => every_request_bind (every_read fun _ _ => rfl) fun _ => ?_
  exact every_checked fun _ => every_request_bind (every_read fun _ _ => rfl) fun _ => every_checked fun _ => trivial

lemma every_attest {namespaceId : Namespace} {position epoch digest : Nat} :
    Every (Tame n) (attest n namespaceId position epoch digest).run := by
  refine every_step ⟨fun w s => ?_, .inl fun w s m key hkey => ?_⟩
  · dsimp only
    cases w.store with
    | error e => rfl
    | ok u =>
      dsimp only
      split
      · split_ifs <;> rfl
      · rfl
  · dsimp only
    cases w.store with
    | error e => exact hkey
    | ok u =>
      dsimp only
      split
      · split_ifs <;> exact hkey
      · exact hkey.setNode fun r hr hstatus => ⟨r, hr, rfl, hstatus⟩

lemma every_signDigest {signer : Signer} {claim : WithdrawalClaim} {message : WithdrawalMessage} {digest : Nat} :
    Every (Tame n) (signDigest d n signer claim message digest).run := by
  refine every_step ⟨fun w s => ?_, .inl fun w s m key hkey => ?_⟩
  · cases d.signPrehash signer.key digest <;> rfl
  · cases d.signPrehash signer.key digest <;> exact hkey

lemma every_gatherRound {digest threshold : Nat} {members : List Nat} {collected : List (Nat × Signature)} :
    Every (Tame n) (gatherRound d digest members threshold collected).run := by
  unfold gatherRound
  split_ifs
  · trivial
  · exact every_read fun _ _ => rfl

lemma every_certify {conf : NodeConfig} {committee : Committee} {claim : WithdrawalClaim}
    {message : WithdrawalMessage} {digest : Nat} :
    Every (Tame n) (committee.certify d n conf claim message digest).run := by
  unfold Committee.certify
  refine every_request_bind (every_outcome every_attest) fun _ => ?_
  cases committee with
  | fixture signers threshold =>
    exact every_mapM fun signer _ => every_request_bind (every_outcome every_signDigest) fun _ => trivial
  | distributed localSigner members threshold =>
    refine every_checked fun _ => every_request_bind (every_outcome every_signDigest) fun _ => ?_
    refine every_request_bind every_gatherRound fun _ => every_request_bind every_gatherRound fun _ => ?_
    exact every_checked fun _ => trivial

lemma every_replaceSettled {claim : WithdrawalClaim} {message : WithdrawalMessage} {signatures : List Signature} :
    Every (Tame n) (replaceSettled n claim message signatures).run := by
  refine every_step ⟨fun w s => ?_, .inr ⟨claim, message, signatures, rfl⟩⟩
  unfold recertified
  cases w.store <;> rfl

lemma every_insertSettled {claim : WithdrawalClaim} {message : WithdrawalMessage} {signatures : List Signature} :
    Every (Tame n) (insertSettled n claim message signatures).run := by
  refine every_step ⟨fun w s => ?_, .inl fun w s m key hkey => ?_⟩
  · dsimp only
    cases w.store with
    | error e => rfl
    | ok u =>
      dsimp only
      split_ifs <;> rfl
  · dsimp only
    cases w.store with
    | error e => exact hkey
    | ok u =>
      dsimp only
      split_ifs
      · exact hkey
      · exact hkey.setNode fun r hr hstatus => ⟨r, List.mem_append_left _ hr, rfl, hstatus⟩

lemma every_certifyClaim {conf : NodeConfig} {ns : NamespaceConfig} {committee : Committee} {claim : WithdrawalClaim}
    {epoch : Nat} {recertify : Bool} :
    Every (Tame n) (certifyClaim d n conf ns committee claim epoch recertify).run := by
  unfold certifyClaim
  refine every_request_bind (every_policy _ claim) fun _ => every_checked fun _ => ?_
  refine every_request_bind every_certify fun signed => ?_
  cases recertify with
  | true => exact every_request_bind every_replaceSettled fun _ => trivial
  | false => exact every_request_bind every_insertSettled fun _ => trivial

lemma every_storedWithdrawal {claim : WithdrawalClaim} : Every (Tame n) (storedWithdrawal n claim).run := by
  refine every_read fun w s => ?_
  cases w.store <;> rfl

lemma every_settle {conf : NodeConfig} {claim : WithdrawalClaim} : Every (Tame n) (settle d n conf claim).run := by
  unfold settle
  refine every_checked fun ns => every_checked fun _ => every_checked fun committee => ?_
  refine every_request_bind (every_outcome (every_read fun _ _ => rfl)) fun epoch => ?_
  refine every_request_bind every_storedWithdrawal fun row => ?_
  cases row with
  | none => exact every_certifyClaim
  | some row =>
    dsimp only
    split_ifs
    · exact every_checked fun _ => trivial
    · exact every_certifyClaim

lemma every_checkPatiently (claim : WithdrawalClaim) (attempts : Nat) :
    Every (Tame n) (checkPatiently d n claim attempts).run := by
  induction attempts with
  | zero => exact every_outcome (every_policy _ claim)
  | succ attempts ih =>
    unfold checkPatiently
    refine every_request_bind (every_outcome (every_policy _ claim)) fun r => ?_
    cases r with
    | ok u => trivial
    | error p =>
      dsimp only
      split_ifs
      · exact ih
      · trivial

lemma every_coSign {conf : NodeConfig} {localSigner : Signer} {req : SignRequest} :
    Every (Tame n) (coSign d n conf localSigner req).run := by
  unfold coSign
  refine every_checked fun _ => every_checked fun _ => every_request_bind (every_checkPatiently _ 12) fun _ => ?_
  refine every_checked fun _ => every_request_bind (every_outcome (every_read fun _ _ => rfl)) fun _ => ?_
  refine every_checked fun _ => every_checked fun _ => every_request_bind every_attest fun _ => every_signDigest

theorem every_serve (s : Network) (r : SettlementRequest) : Every (Tame n) (s.serve d n r) := by
  cases r with
  | settle claim =>
    refine every_served (every_request_bind every_settle fun certificate => every_step ⟨fun _ _ => rfl, .inl ?_⟩)
    exact fun _ _ _ _ hkey => hkey
  | signForPeer req =>
    refine every_bind ?_ fun _ => trivial
    unfold signForPeer
    cases (s.nodes n).conf.committee.bind Committee.localSigner with
    | none => trivial
    | some localSigner =>
      refine every_bind every_coSign fun r => ?_
      cases r <;> trivial

end Every

end Peal.Links
