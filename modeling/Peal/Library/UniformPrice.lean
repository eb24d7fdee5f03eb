import Mathlib.Tactic

namespace Peal.UniformPrice

/-! # Sealed-bid uniform-price clearing

Orders name a quantity and the highest tick they accept. The sale clears at the greatest tick whose
demand at or above it covers the supply, and at the reserve when no tick does. Every order above the
clearing tick is filled; the orders on it share what is left in proportion, rounded down. -/

structure Order where
  quantity : Nat
  tick : Nat
  deriving DecidableEq, Repr

def quantityWhere (p : Nat → Bool) (book : List Order) : Nat :=
  ((book.filter (fun o => p o.tick)).map Order.quantity).sum

def demandAt (book : List Order) (t : Nat) : Nat := quantityWhere (fun u => u == t) book

def demandFrom (book : List Order) (t : Nat) : Nat := quantityWhere (fun u => decide (t ≤ u)) book

def clearingTick (book : List Order) (supply numTicks : Nat) : Nat :=
  Nat.findGreatest (fun t => supply ≤ demandFrom book t) (numTicks - 1)

def sold (book : List Order) (supply : Nat) : Nat := min supply (demandFrom book 0)

/-- What is left for the orders on the clearing tick. -/
def shared (book : List Order) (supply numTicks : Nat) : Nat :=
  supply - demandFrom book (clearingTick book supply numTicks + 1)

/-- A quantity on the clearing tick, cut down in proportion where there is not enough to go round. -/
def ration (book : List Order) (supply numTicks quantity : Nat) : Nat :=
  if demandAt book (clearingTick book supply numTicks) ≤ shared book supply numTicks then quantity
  else quantity * shared book supply numTicks / demandAt book (clearingTick book supply numTicks)

def fill (book : List Order) (supply numTicks : Nat) (o : Order) : Nat :=
  if o.tick < clearingTick book supply numTicks then 0
  else if clearingTick book supply numTicks < o.tick then o.quantity
  else ration book supply numTicks o.quantity

@[simp] lemma quantityWhere_nil (p : Nat → Bool) : quantityWhere p [] = 0 := rfl

lemma quantityWhere_cons (p : Nat → Bool) (o : Order) (book : List Order) :
    quantityWhere p (o :: book) = (if p o.tick then o.quantity else 0) + quantityWhere p book := by
  unfold quantityWhere
  by_cases h : p o.tick <;> simp [h]

lemma quantityWhere_append (p : Nat → Bool) (book book' : List Order) :
    quantityWhere p (book ++ book') = quantityWhere p book + quantityWhere p book' := by
  simp [quantityWhere]

lemma quantityWhere_perm (p : Nat → Bool) {book book' : List Order} (h : book.Perm book') :
    quantityWhere p book = quantityWhere p book' :=
  ((h.filter _).map _).sum_eq

lemma quantityWhere_mono {p q : Nat → Bool} (h : ∀ t, p t → q t) (book : List Order) :
    quantityWhere p book ≤ quantityWhere q book := by
  induction book with
  | nil => simp
  | cons o book ih =>
    rw [quantityWhere_cons, quantityWhere_cons]
    by_cases hp : p o.tick
    · rw [if_pos hp, if_pos (h o.tick hp)]
      omega
    · rw [if_neg hp]
      omega

lemma quantityWhere_split {p q r : Nat → Bool} (hor : ∀ t, r t = (p t || q t))
    (hand : ∀ t, ¬(p t ∧ q t)) (book : List Order) :
    quantityWhere r book = quantityWhere p book + quantityWhere q book := by
  induction book with
  | nil => simp
  | cons o book ih =>
    have hdisj := hand o.tick
    simp only [quantityWhere_cons, hor o.tick, ih]
    by_cases hp : p o.tick
    · have hq : q o.tick = false := by simpa [hp] using hdisj
      simp [hp, hq]
      omega
    · simp only [Bool.not_eq_true] at hp
      simp [hp]
      omega

lemma demandFrom_step (book : List Order) (t : Nat) :
    demandFrom book t = demandAt book t + demandFrom book (t + 1) := by
  unfold demandFrom demandAt
  apply quantityWhere_split
  · intro u
    by_cases h : t ≤ u <;> simp [h] <;> omega
  · intro u
    simp only [beq_iff_eq, decide_eq_true_eq]
    omega

lemma demandFrom_antitone (book : List Order) {t u : Nat} (h : t ≤ u) :
    demandFrom book u ≤ demandFrom book t := by
  apply quantityWhere_mono
  intro v
  simp only [decide_eq_true_eq]
  omega

lemma demandFrom_eq_zero {book : List Order} {t : Nat} (h : ∀ o ∈ book, o.tick < t) :
    demandFrom book t = 0 := by
  have hnil : book.filter (fun o => decide (t ≤ o.tick)) = [] := by
    rw [List.filter_eq_nil_iff]
    intro o ho
    have := h o ho
    simp only [decide_eq_true_eq]
    omega
  unfold demandFrom quantityWhere
  rw [hnil]
  rfl

lemma exists_tick_bound (book : List Order) : ∃ n, ∀ o ∈ book, o.tick < n := by
  induction book with
  | nil => exact ⟨0, fun o ho => absurd ho List.not_mem_nil⟩
  | cons o book ih =>
    obtain ⟨n, hn⟩ := ih
    refine ⟨max (o.tick + 1) n, fun o' ho' => ?_⟩
    rcases List.mem_cons.mp ho' with heq | hmem
    · rw [heq]
      omega
    · have := hn o' hmem
      omega

lemma demandFrom_congr {book book' : List Order} (h : ∀ t, demandAt book t = demandAt book' t) (t : Nat) :
    demandFrom book t = demandFrom book' t := by
  obtain ⟨n, hn⟩ := exists_tick_bound (book ++ book')
  have hdown : ∀ k t, n ≤ t + k → demandFrom book t = demandFrom book' t := by
    intro k
    induction k with
    | zero =>
      intro t ht
      rw [demandFrom_eq_zero, demandFrom_eq_zero]
      · intro o ho
        have := hn o (List.mem_append_right book ho)
        omega
      · intro o ho
        have := hn o (List.mem_append_left book' ho)
        omega
    | succ k ih =>
      intro t ht
      rw [demandFrom_step book t, demandFrom_step book' t, h t, ih (t + 1) (by omega)]
  exact hdown n t (by omega)

lemma quantity_le_demandAt {book : List Order} {o : Order} (ho : o ∈ book) :
    o.quantity ≤ demandAt book o.tick := by
  unfold demandAt quantityWhere
  apply List.single_le_sum (fun _ _ => Nat.zero_le _)
  exact List.mem_map_of_mem (List.mem_filter.mpr ⟨ho, by simp⟩)

section Clearing

variable (book : List Order) (supply numTicks : Nat)

lemma clearingTick_le : clearingTick book supply numTicks ≤ numTicks - 1 :=
  Nat.findGreatest_le _

lemma clearingTick_congr {book' : List Order} (h : ∀ t, demandAt book t = demandAt book' t) :
    clearingTick book supply numTicks = clearingTick book' supply numTicks := by
  unfold clearingTick
  simp only [demandFrom_congr h]

lemma demandFrom_above_lt (hbook : ∀ o ∈ book, o.tick < numTicks) (hs : 0 < supply) {t : Nat}
    (ht : clearingTick book supply numTicks < t) : demandFrom book t < supply := by
  by_cases htn : t ≤ numTicks - 1
  · have h := Nat.findGreatest_is_greatest ht htn
    omega
  · have hzero : demandFrom book t = 0 := by
      apply demandFrom_eq_zero
      intro o ho
      have := hbook o ho
      omega
    omega

lemma clearingTick_covers : supply ≤ demandFrom book (clearingTick book supply numTicks) ∨
    (clearingTick book supply numTicks = 0 ∧ demandFrom book 0 < supply) := by
  by_cases h : supply ≤ demandFrom book (clearingTick book supply numTicks)
  · exact Or.inl h
  · right
    have hzero : clearingTick book supply numTicks = 0 := by
      by_contra hne
      exact h (Nat.findGreatest_of_ne_zero (P := fun t => supply ≤ demandFrom book t) rfl hne)
    rw [hzero] at h
    exact ⟨hzero, by omega⟩

lemma clearingTick_unique {t : Nat} (ht : t ≤ numTicks - 1) (hcover : supply ≤ demandFrom book t)
    (habove : demandFrom book (t + 1) < supply) : clearingTick book supply numTicks = t := by
  have hge : t ≤ clearingTick book supply numTicks := Nat.le_findGreatest ht hcover
  by_contra hne
  have hanti := demandFrom_antitone book (show t + 1 ≤ clearingTick book supply numTicks by omega)
  have hcov : supply ≤ demandFrom book (clearingTick book supply numTicks) :=
    Nat.findGreatest_spec (P := fun t => supply ≤ demandFrom book t) ht hcover
  omega

lemma clearingTick_undersubscribed (h : demandFrom book 0 < supply) :
    clearingTick book supply numTicks = 0 := by
  rcases clearingTick_covers book supply numTicks with hc | hc
  · have := demandFrom_antitone book (Nat.zero_le (clearingTick book supply numTicks))
    omega
  · exact hc.1

lemma fill_below {o : Order} (h : o.tick < clearingTick book supply numTicks) :
    fill book supply numTicks o = 0 := by
  unfold fill
  rw [if_pos h]

lemma fill_above {o : Order} (h : clearingTick book supply numTicks < o.tick) :
    fill book supply numTicks o = o.quantity := by
  unfold fill
  rw [if_neg (by omega), if_pos h]

lemma fill_on {o : Order} (h : o.tick = clearingTick book supply numTicks) :
    fill book supply numTicks o = ration book supply numTicks o.quantity := by
  unfold fill
  rw [if_neg (by omega), if_neg (by omega)]

lemma ration_le (quantity : Nat) : ration book supply numTicks quantity ≤ quantity := by
  unfold ration
  split_ifs with hfit
  · exact le_rfl
  · apply Nat.div_le_of_le_mul
    rw [Nat.mul_comm (demandAt _ _)]
    exact Nat.mul_le_mul_left _ (by omega)

lemma ration_add_le (q q' : Nat) : ration book supply numTicks q + ration book supply numTicks q' ≤
    ration book supply numTicks (q + q') := by
  unfold ration
  split_ifs with hfit
  · exact le_rfl
  · rw [Nat.add_mul]
    exact Nat.div_add_div_le_add_div

lemma ration_whole_tick : ration book supply numTicks
    (demandAt book (clearingTick book supply numTicks)) ≤
      min (demandAt book (clearingTick book supply numTicks)) (shared book supply numTicks) := by
  unfold ration
  split_ifs with hfit
  · omega
  · have hpos : 0 < demandAt book (clearingTick book supply numTicks) := by omega
    rw [Nat.mul_comm, Nat.mul_div_cancel _ hpos]
    omega

lemma fill_le_quantity (o : Order) : fill book supply numTicks o ≤ o.quantity := by
  unfold fill
  split_ifs with hbelow habove
  · exact Nat.zero_le _
  · exact le_rfl
  · exact ration_le book supply numTicks o.quantity

lemma sum_fill_part_le (part : List Order) : (part.map (fill book supply numTicks)).sum ≤
    demandFrom part (clearingTick book supply numTicks + 1) +
      ration book supply numTicks (demandAt part (clearingTick book supply numTicks)) := by
  induction part with
  | nil => simp
  | cons o part ih =>
    have hadd := ration_add_le book supply numTicks o.quantity
      (demandAt part (clearingTick book supply numTicks))
    unfold demandFrom demandAt at *
    rw [List.map_cons, List.sum_cons, quantityWhere_cons, quantityWhere_cons]
    rcases Nat.lt_trichotomy o.tick (clearingTick book supply numTicks) with h | h | h
    · rw [fill_below book supply numTicks h, if_neg (by simp; omega), if_neg (by simp; omega)]
      simpa using ih
    · rw [fill_on book supply numTicks h, if_neg (by simp; omega), if_pos (by simpa using h)]
      omega
    · rw [fill_above book supply numTicks h, if_pos (by simpa using h), if_neg (by simp; omega),
        Nat.zero_add]
      omega

/-- Pro-rata fills never hand out more than the sale sells. -/
theorem sum_fill_le_sold (hbook : ∀ o ∈ book, o.tick < numTicks) (hs : 0 < supply) :
    (book.map (fill book supply numTicks)).sum ≤ sold book supply := by
  have hpart := sum_fill_part_le book supply numTicks book
  have hration := ration_whole_tick book supply numTicks
  have habove := demandFrom_above_lt book supply numTicks hbook hs
    (Nat.lt_add_one (clearingTick book supply numTicks))
  have hstep := demandFrom_step book (clearingTick book supply numTicks)
  have htotal := demandFrom_antitone book (Nat.zero_le (clearingTick book supply numTicks))
  have hshared : shared book supply numTicks =
      supply - demandFrom book (clearingTick book supply numTicks + 1) := rfl
  unfold sold
  rw [le_min_iff]
  omega

end Clearing

section Charges

variable (price unit : Nat)

/-- What flooring every charge on its own loses, in fractions of `unit`. -/
def roundingLoss (amounts : List Nat) : Nat := (amounts.map (fun a => a * price % unit)).sum

def charges (amounts : List Nat) : Nat := (amounts.map (fun a => a * price / unit)).sum

lemma charges_add_roundingLoss (amounts : List Nat) :
    unit * charges price unit amounts + roundingLoss price unit amounts = amounts.sum * price := by
  induction amounts with
  | nil => simp [charges, roundingLoss]
  | cons a amounts ih =>
    have hdiv : unit * (a * price / unit) + a * price % unit = a * price := Nat.div_add_mod _ _
    simp only [charges, roundingLoss, List.map_cons, List.sum_cons] at ih ⊢
    rw [Nat.mul_add, Nat.add_mul]
    omega

/-- A total charged as one amount is covered by charges floored one by one, and `surplus` more,
exactly when the floored fractions and the unfilled dust stay below one unit more than `surplus`. -/
theorem total_charge_covered_iff (hunit : 0 < unit) {total : Nat} {amounts : List Nat}
    (hsum : amounts.sum ≤ total) (surplus : Nat) :
    total * price / unit ≤ charges price unit amounts + surplus ↔
      roundingLoss price unit amounts + (total - amounts.sum) * price < unit * (surplus + 1) := by
  have hsplit := charges_add_roundingLoss price unit amounts
  have hdust : (total - amounts.sum) * price + amounts.sum * price = total * price := by
    rw [← Nat.add_mul, Nat.sub_add_cancel hsum]
  have hmul : unit * (charges price unit amounts + surplus + 1) =
      unit * charges price unit amounts + unit * (surplus + 1) := by
    rw [Nat.add_assoc, Nat.mul_add]
  rw [← Nat.lt_succ_iff, Nat.div_lt_iff_lt_mul hunit, Nat.mul_comm _ unit, Nat.succ_eq_add_one, hmul]
  omega

end Charges

section WholeShares

variable (book : List Order) (supply numTicks : Nat)

/-- No order on the clearing tick loses a fraction of a unit to rounding. -/
def WholeShares : Prop :=
  ∀ o ∈ book, o.tick = clearingTick book supply numTicks →
    shared book supply numTicks < demandAt book (clearingTick book supply numTicks) →
      demandAt book (clearingTick book supply numTicks) ∣ o.quantity * shared book supply numTicks

def onTick (part : List Order) : List Nat :=
  (part.filter fun o => o.tick == clearingTick book supply numTicks).map Order.quantity

lemma sum_fill_eq (part : List Order) : (part.map (fill book supply numTicks)).sum =
    demandFrom part (clearingTick book supply numTicks + 1) +
      ((onTick book supply numTicks part).map (ration book supply numTicks)).sum := by
  induction part with
  | nil => rfl
  | cons o part ih =>
    unfold demandFrom onTick at *
    rw [List.map_cons, List.sum_cons, quantityWhere_cons, ih]
    rcases Nat.lt_trichotomy o.tick (clearingTick book supply numTicks) with h | h | h
    · rw [fill_below book supply numTicks h, if_neg (by simp; omega),
        List.filter_cons_of_neg (by simp; omega)]
      omega
    · rw [fill_on book supply numTicks h, if_neg (by simp; omega), List.filter_cons_of_pos (by simpa using h),
        List.map_cons, List.map_cons, List.sum_cons]
      omega
    · rw [fill_above book supply numTicks h, if_pos (by simpa using h),
        List.filter_cons_of_neg (by simp; omega)]
      omega

lemma charges_eq_iff {price unit : Nat} (hunit : 0 < unit) {amounts : List Nat} (hsum : amounts.sum = unit) :
    charges price unit amounts = price ↔ ∀ a ∈ amounts, unit ∣ a * price := by
  have hsplit := charges_add_roundingLoss price unit amounts
  have hzero : roundingLoss price unit amounts = 0 ↔ ∀ a ∈ amounts, unit ∣ a * price := by
    unfold roundingLoss
    rw [List.sum_eq_zero_iff]
    constructor
    · intro h a ha
      exact Nat.dvd_of_mod_eq_zero (h _ (List.mem_map_of_mem ha))
    · intro h x hx
      obtain ⟨a, ha, rfl⟩ := List.mem_map.mp hx
      exact Nat.mod_eq_zero_of_dvd (h a ha)
  rw [← hzero]
  rw [hsum] at hsplit
  constructor
  · intro h
    rw [h] at hsplit
    omega
  · intro h
    rw [h, Nat.add_zero] at hsplit
    exact Nat.eq_of_mul_eq_mul_left hunit hsplit

lemma sum_fill_of_room (hbook : ∀ o ∈ book, o.tick < numTicks) (hs : 0 < supply)
    (hroom : demandAt book (clearingTick book supply numTicks) ≤ shared book supply numTicks) :
    (book.map (fill book supply numTicks)).sum = sold book supply := by
  have habove := demandFrom_above_lt book supply numTicks hbook hs
    (Nat.lt_add_one (clearingTick book supply numTicks))
  have hstep := demandFrom_step book (clearingTick book supply numTicks)
  have htotal := demandFrom_antitone book (Nat.zero_le (clearingTick book supply numTicks))
  have hshared : shared book supply numTicks =
      supply - demandFrom book (clearingTick book supply numTicks + 1) := rfl
  have hon : (onTick book supply numTicks book).sum = demandAt book (clearingTick book supply numTicks) := rfl
  have hration : ration book supply numTicks = id := by
    funext q
    unfold ration
    rw [if_pos hroom]
    rfl
  have hsold : demandFrom book (clearingTick book supply numTicks) = sold book supply := by
    unfold sold
    rcases clearingTick_covers book supply numTicks with hcover | ⟨hzero, hsmall⟩
    · omega
    · rw [hzero]
      omega
  rw [sum_fill_eq, hration, List.map_id, hon]
  omega

lemma sum_fill_of_scarce (hbook : ∀ o ∈ book, o.tick < numTicks) (hs : 0 < supply)
    (hscarce : shared book supply numTicks < demandAt book (clearingTick book supply numTicks)) :
    sold book supply = demandFrom book (clearingTick book supply numTicks + 1) + shared book supply numTicks ∧
      (book.map (fill book supply numTicks)).sum =
        demandFrom book (clearingTick book supply numTicks + 1) +
          charges (shared book supply numTicks) (demandAt book (clearingTick book supply numTicks))
            (onTick book supply numTicks book) := by
  have habove := demandFrom_above_lt book supply numTicks hbook hs
    (Nat.lt_add_one (clearingTick book supply numTicks))
  have hstep := demandFrom_step book (clearingTick book supply numTicks)
  have htotal := demandFrom_antitone book (Nat.zero_le (clearingTick book supply numTicks))
  have hshared : shared book supply numTicks =
      supply - demandFrom book (clearingTick book supply numTicks + 1) := rfl
  have hration : ration book supply numTicks = fun q =>
      q * shared book supply numTicks / demandAt book (clearingTick book supply numTicks) := by
    funext q
    unfold ration
    rw [if_neg (by omega)]
  constructor
  · unfold sold
    omega
  · rw [sum_fill_eq, hration]
    rfl

/-- The fills hand out all that is sold exactly when no share is rounded. -/
theorem sum_fill_eq_sold_iff (hbook : ∀ o ∈ book, o.tick < numTicks) (hs : 0 < supply) :
    (book.map (fill book supply numTicks)).sum = sold book supply ↔ WholeShares book supply numTicks := by
  by_cases hroom : demandAt book (clearingTick book supply numTicks) ≤ shared book supply numTicks
  · refine iff_of_true (sum_fill_of_room book supply numTicks hbook hs hroom) fun o _ _ hlt => ?_
    omega
  · obtain ⟨hsold, hsum⟩ := sum_fill_of_scarce book supply numTicks hbook hs (by omega)
    have hon : (onTick book supply numTicks book).sum =
        demandAt book (clearingTick book supply numTicks) := rfl
    have hwhole := @charges_eq_iff (shared book supply numTicks) _ (by omega) _ hon
    rw [hsold, hsum, Nat.add_left_cancel_iff, hwhole]
    constructor
    · intro h o ho htick _
      exact h o.quantity (List.mem_map_of_mem (List.mem_filter.mpr ⟨ho, by simpa using htick⟩))
    · intro h q hq
      obtain ⟨o, ho, rfl⟩ := List.mem_map.mp hq
      obtain ⟨hmem, htick⟩ := List.mem_filter.mp ho
      exact h o hmem (by simpa using htick) (by omega)

lemma roundingLoss_lt {price unit : Nat} (hunit : 0 < unit) {amounts : List Nat} (hne : amounts ≠ []) :
    roundingLoss price unit amounts < unit * amounts.length := by
  induction amounts with
  | nil => exact absurd rfl hne
  | cons a amounts ih =>
    have hlt := Nat.mod_lt (a * price) hunit
    unfold roundingLoss at *
    rw [List.map_cons, List.sum_cons, List.length_cons, Nat.mul_add]
    by_cases hlast : amounts = []
    · subst hlast
      simpa using hlt
    · have := ih hlast
      omega

lemma lt_charges_add_length {price unit : Nat} (hunit : 0 < unit) {amounts : List Nat}
    (hsum : amounts.sum = unit) : price < charges price unit amounts + amounts.length := by
  have hne : amounts ≠ [] := by
    rintro rfl
    rw [List.sum_nil] at hsum
    omega
  have hsplit := charges_add_roundingLoss price unit amounts
  have hlt := @roundingLoss_lt price _ hunit _ hne
  rw [hsum] at hsplit
  have hmul : unit * price < unit * (charges price unit amounts + amounts.length) := by
    rw [Nat.mul_add]
    omega
  exact Nat.lt_of_mul_lt_mul_left hmul

/-- What is sold and not handed out is less than one unit for each order on the clearing tick. -/
theorem sold_lt_sum_fill_add (hbook : ∀ o ∈ book, o.tick < numTicks) (hs : 0 < supply) :
    (book.map (fill book supply numTicks)).sum = sold book supply ∨
      sold book supply < (book.map (fill book supply numTicks)).sum +
        (onTick book supply numTicks book).length := by
  by_cases hroom : demandAt book (clearingTick book supply numTicks) ≤ shared book supply numTicks
  · exact Or.inl (sum_fill_of_room book supply numTicks hbook hs hroom)
  · obtain ⟨hsold, hsum⟩ := sum_fill_of_scarce book supply numTicks hbook hs (by omega)
    have hon : (onTick book supply numTicks book).sum =
        demandAt book (clearingTick book supply numTicks) := rfl
    have hlt := @lt_charges_add_length (shared book supply numTicks) _ (by omega) _ hon
    omega

end WholeShares

end Peal.UniformPrice
