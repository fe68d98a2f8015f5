/-
  ZeroAuth.Js.UpperCase

  What `toUpperCase` does to arbitrary strings.

  The mapping has no context: every code point is replaced by its own upper-case
  text.  White space and hyphens have no case and are the upper case of nothing
  else; a code point above U+FFFF stays above it.
-/

import ZeroAuth.Js.Text

namespace ZeroAuth.Js

/-- White space and hyphens, the class `[\s-]` of a regular expression. -/
def isSeparator (u : CodeUnit) : Bool := isWhiteSpace u || u == 45

/-- A high surrogate with a low one is one code point. -/
def isPair (u v : CodeUnit) : Bool := isHigh u && isLow v

/-- The Unicode upper-case mapping, as far as separators and surrogates go. -/
structure CaseMapping.Upper (cm : CaseMapping) : Prop where
  /-- Code points are mapped one by one. -/
  append : ∀ s u v t, isPair u v = false →
    cm.toUpperCase (s ++ u :: v :: t) = cm.toUpperCase (s ++ [u]) ++ cm.toUpperCase (v :: t)
  separator : ∀ u, isSeparator u = true → cm.toUpperCase [u] = [u]
  noSeparator : ∀ s, (∀ u ∈ s, isSeparator u = false) →
    ∀ v ∈ cm.toUpperCase s, isSeparator v = false
  surrogate : ∀ s, (∃ u ∈ s, isSurrogate u = true) → ∃ v ∈ cm.toUpperCase s, isSurrogate v = true
  again : ∀ s, cm.toUpperCase (cm.toUpperCase s) = cm.toUpperCase s
  /-- A text in upper case stays so when it is cut. -/
  cut : ∀ s t, cm.toUpperCase (s ++ t) = s ++ t → cm.toUpperCase s = s ∧ cm.toUpperCase t = t

theorem isSurrogate_of_isSeparator {u : CodeUnit} (h : isSeparator u = true) :
    isSurrogate u = false := by
  rw [isSeparator, Bool.or_eq_true] at h
  rcases h with h | h
  · simp only [isWhiteSpace, Bool.or_eq_true, Bool.and_eq_true, decide_eq_true_eq, beq_iff_eq] at h
    simp only [isSurrogate, isHigh, isLow, Bool.or_eq_false_iff, Bool.and_eq_false_iff,
      decide_eq_false_iff_not]
    omega
  · obtain rfl := beq_iff_eq.mp h
    decide

theorem isPair_separator_left {u v : CodeUnit} (h : isSeparator u = true) : isPair u v = false := by
  have hsurrogate := isSurrogate_of_isSeparator h
  rw [isSurrogate, Bool.or_eq_false_iff] at hsurrogate
  rw [isPair, hsurrogate.1, Bool.false_and]

theorem isPair_separator_right {u v : CodeUnit} (h : isSeparator v = true) : isPair u v = false := by
  have hsurrogate := isSurrogate_of_isSeparator h
  rw [isSurrogate, Bool.or_eq_false_iff] at hsurrogate
  rw [isPair, hsurrogate.2, Bool.and_false]

namespace CaseMapping.Upper

variable {cm : CaseMapping}

theorem upper_nil (cm : CaseMapping) : cm.toUpperCase [] = [] :=
  cm.upper_ascii [] (by simp [IsAscii])

/-- No code point stands across the seam of `s` and `t`. -/
def Seam (s t : JsString) : Prop := ∀ u ∈ s.getLast?, ∀ v ∈ t.head?, isPair u v = false

theorem toUpperCase_append (h : cm.Upper) {s t : JsString} (hseam : Seam s t) :
    cm.toUpperCase (s ++ t) = cm.toUpperCase s ++ cm.toUpperCase t := by
  rcases List.eq_nil_or_concat s with rfl | ⟨s, u, rfl⟩
  · rw [upper_nil, List.nil_append, List.nil_append]
  · cases t with
    | nil => rw [upper_nil, List.append_nil, List.append_nil]
    | cons v t =>
        have hpair := hseam u (by simp) v (by simp)
        rw [List.concat_eq_append, List.append_assoc]
        exact h.append s u v t hpair

/-- A separator in the middle is kept, and divides the work. -/
theorem toUpperCase_separator (h : cm.Upper) {u : CodeUnit} (hu : isSeparator u = true)
    (s t : JsString) :
    cm.toUpperCase (s ++ u :: t) = cm.toUpperCase s ++ u :: cm.toUpperCase t := by
  have hleft : Seam s (u :: t) := by
    intro v _ w hw
    cases hw
    exact isPair_separator_right hu
  have hright : Seam [u] t := by
    intro v hv w _
    cases hv
    exact isPair_separator_left hu
  have hrest : cm.toUpperCase (u :: t) = u :: cm.toUpperCase t := by
    have hsplit := h.toUpperCase_append hright
    rw [h.separator u hu] at hsplit
    exact hsplit
  rw [h.toUpperCase_append hleft, hrest]

end CaseMapping.Upper

/-! ## A mapping with characters above U+FFFF

  Besides the letters of ASCII it maps the Deseret letters, U+10428 to U+1044F. -/

def isDeseretSmall (u v : CodeUnit) : Bool := u == 0xD801 && (0xDC28 ≤ v.val && v.val ≤ 0xDC4F)

def deseretUpper : JsString → JsString
  | [] => []
  | [u] => [asciiUpper u]
  | u :: v :: t =>
      if isDeseretSmall u v then u :: (v - 0x28) :: deseretUpper t
      else asciiUpper u :: deseretUpper (v :: t)

/-! ### It is an upper-case mapping -/

theorem isPair_of_isDeseretSmall {u v : CodeUnit} (h : isDeseretSmall u v = true) :
    isPair u v = true := by
  simp only [isDeseretSmall, Bool.and_eq_true, beq_iff_eq, decide_eq_true_eq] at h
  obtain ⟨rfl, hlow, hhigh⟩ := h
  rw [isPair, isLow, Bool.and_eq_true, Bool.and_eq_true, decide_eq_true_eq, decide_eq_true_eq]
  exact ⟨by decide, by omega, by omega⟩

theorem deseretUpper_pair {u v : CodeUnit} (h : isDeseretSmall u v = true) (t : JsString) :
    deseretUpper (u :: v :: t) = u :: (v - 0x28) :: deseretUpper t := by
  rw [deseretUpper, if_pos h]

theorem deseretUpper_cons {u v : CodeUnit} (h : isDeseretSmall u v = false) (t : JsString) :
    deseretUpper (u :: v :: t) = asciiUpper u :: deseretUpper (v :: t) := by
  rw [deseretUpper, h, if_neg (by decide)]

theorem deseretUpper_append (s : JsString) {u v : CodeUnit} (t : JsString)
    (h : isPair u v = false) :
    deseretUpper (s ++ u :: v :: t) = deseretUpper (s ++ [u]) ++ deseretUpper (v :: t) := by
  -- what is no pair is no small letter of the block
  have hsmall : isDeseretSmall u v = false := by
    by_contra hne
    rw [isPair_of_isDeseretSmall (Bool.eq_true_of_not_eq_false hne)] at h
    cases h
  induction s using deseretUpper.induct with
  | case1 =>
      show deseretUpper (u :: v :: t) = _
      rw [deseretUpper_cons hsmall]
      rfl
  | case2 w =>
      show deseretUpper (w :: u :: v :: t) = deseretUpper (w :: u :: []) ++ _
      cases hw : isDeseretSmall w u with
      | true =>
          rw [deseretUpper_pair hw, deseretUpper_pair hw]
          rfl
      | false =>
          rw [deseretUpper_cons hw, deseretUpper_cons hsmall, deseretUpper_cons hw]
          rfl
  | case3 a b s hab ih =>
      show deseretUpper (a :: b :: (s ++ u :: v :: t)) = deseretUpper (a :: b :: (s ++ [u])) ++ _
      rw [deseretUpper_pair hab, deseretUpper_pair hab, ih]
      rfl
  | case4 a b s hab ih =>
      have hab' : isDeseretSmall a b = false := Bool.eq_false_of_not_eq_true hab
      show deseretUpper (a :: b :: (s ++ u :: v :: t)) = deseretUpper (a :: b :: (s ++ [u])) ++ _
      rw [deseretUpper_cons hab', deseretUpper_cons hab', ← List.cons_append, ih]
      rfl

theorem asciiUpper_of_surrogate {u : CodeUnit} (h : isSurrogate u = true) : asciiUpper u = u := by
  simp only [isSurrogate, isHigh, isLow, Bool.or_eq_true, Bool.and_eq_true,
    decide_eq_true_eq] at h
  rw [asciiUpper, if_neg (by omega)]

/-- A unit is kept, or a letter becomes a letter. -/
theorem asciiUpper_cases (u : CodeUnit) : asciiUpper u = u ∨
    ((0x61 ≤ u.val ∧ u.val ≤ 0x7A) ∧ 0x41 ≤ (asciiUpper u).val ∧ (asciiUpper u).val ≤ 0x5A) := by
  by_cases h : 0x61 ≤ u.val ∧ u.val ≤ 0x7A
  · have hval : (asciiUpper u).val = u.val - 0x20 := by
      rw [asciiUpper, if_pos h, Fin.sub_val_of_le]
      · rfl
      · rw [Fin.le_def]
        show 0x20 ≤ u.val
        omega
    exact .inr ⟨h, by omega, by omega⟩
  · exact .inl (if_neg h)

theorem asciiUpper_again (u : CodeUnit) : asciiUpper (asciiUpper u) = asciiUpper u := by
  rcases asciiUpper_cases u with h | ⟨-, hlow, hhigh⟩
  · rw [h, h]
  · rw [asciiUpper, if_neg (by omega)]

theorem isSeparator_of_letter {u : CodeUnit} (h : 0x41 ≤ u.val ∧ u.val ≤ 0x7A) :
    isSeparator u = false := by
  have hhyphen : u ≠ 45 := by
    rintro rfl
    exact absurd h.1 (by decide)
  simp only [isSeparator, isWhiteSpace, Bool.or_eq_false_iff, Bool.and_eq_false_iff,
    decide_eq_false_iff_not, beq_eq_false_iff_ne]
  refine ⟨?_, hhyphen⟩
  omega

theorem isSeparator_asciiUpper {u : CodeUnit} (h : isSeparator u = false) :
    isSeparator (asciiUpper u) = false := by
  rcases asciiUpper_cases u with hself | ⟨-, hlow, hhigh⟩
  · rw [hself]
    exact h
  · exact isSeparator_of_letter ⟨hlow, by omega⟩

theorem asciiUpper_separator {u : CodeUnit} (h : isSeparator u = true) : asciiUpper u = u := by
  rcases asciiUpper_cases u with hself | ⟨⟨hlow, hhigh⟩, -⟩
  · exact hself
  · rw [isSeparator_of_letter ⟨by omega, hhigh⟩] at h
    cases h

theorem isDeseretSmall_iff {u v : CodeUnit} :
    isDeseretSmall u v = true ↔ u = 0xD801 ∧ 0xDC28 ≤ v.val ∧ v.val ≤ 0xDC4F := by
  simp only [isDeseretSmall, Bool.and_eq_true, beq_iff_eq, decide_eq_true_eq]

theorem isDeseretSmall_asciiUpper (u v : CodeUnit) :
    isDeseretSmall (asciiUpper u) (asciiUpper v) = isDeseretSmall u v := by
  rw [Bool.eq_iff_iff, isDeseretSmall_iff, isDeseretSmall_iff]
  have hu : asciiUpper u = 0xD801 ↔ u = 0xD801 := by
    rcases asciiUpper_cases u with h | ⟨⟨hlow, hhigh⟩, hlow', hhigh'⟩
    · rw [h]
    · constructor
      · intro heq
        rw [heq] at hhigh'
        exact absurd hhigh' (by decide)
      · rintro rfl
        exact absurd hhigh (by decide)
  have hv : 0xDC28 ≤ (asciiUpper v).val ∧ (asciiUpper v).val ≤ 0xDC4F ↔
      0xDC28 ≤ v.val ∧ v.val ≤ 0xDC4F := by
    rcases asciiUpper_cases v with h | h
    · rw [h]
    · omega
  rw [hu, hv]

/-- The lower half of a small letter, and of its capital. -/
theorem val_capital {u v : CodeUnit} (h : isDeseretSmall u v = true) :
    (v - 0x28).val = v.val - 0x28 ∧ isSurrogate (v - 0x28) = true ∧
      (v - 0x28) ≠ 0xD801 := by
  obtain ⟨-, hlow, hhigh⟩ := isDeseretSmall_iff.mp h
  have hval : (v - 0x28).val = v.val - 0x28 := by
    rw [Fin.sub_val_of_le]
    · rfl
    · rw [Fin.le_def]
      show 0x28 ≤ v.val
      omega
  refine ⟨hval, ?_, ?_⟩
  · simp only [isSurrogate, isHigh, isLow, Bool.or_eq_true, Bool.and_eq_true, decide_eq_true_eq]
    omega
  · intro heq
    rw [heq] at hval
    have hnum : ((0xD801 : CodeUnit).val) = 0xD801 := rfl
    omega

/-- The first unit stays the first. -/
theorem deseretUpper_head (u : CodeUnit) (t : JsString) :
    ∃ t', deseretUpper (u :: t) = asciiUpper u :: t' := by
  cases t with
  | nil => exact ⟨[], rfl⟩
  | cons v t =>
      cases h : isDeseretSmall u v with
      | true =>
          have hu := (isDeseretSmall_iff.mp h).1
          have hself : asciiUpper u = u := by
            rw [hu]
            decide
          rw [deseretUpper_pair h, hself]
          exact ⟨_, rfl⟩
      | false => exact ⟨_, deseretUpper_cons h t⟩

theorem deseretUpper_of_ne {u : CodeUnit} (h : u ≠ 0xD801) (t : JsString) :
    deseretUpper (u :: t) = asciiUpper u :: deseretUpper t := by
  cases t with
  | nil => rfl
  | cons v t =>
      refine deseretUpper_cons ?_ t
      by_contra hne
      exact h (isDeseretSmall_iff.mp (Bool.eq_true_of_not_eq_false hne)).1

theorem deseretUpper_again (s : JsString) : deseretUpper (deseretUpper s) = deseretUpper s := by
  induction s using deseretUpper.induct with
  | case1 => rfl
  | case2 u => exact congrArg (fun v => [v]) (asciiUpper_again u)
  | case3 u v t h ih =>
      obtain ⟨hval, hsurrogate, hne⟩ := val_capital h
      obtain ⟨rfl, hlow, hhigh⟩ := isDeseretSmall_iff.mp h
      have hcapital : isDeseretSmall 0xD801 (v - 0x28) = false := by
        by_contra hsmall
        have hrange := (isDeseretSmall_iff.mp (Bool.eq_true_of_not_eq_false hsmall)).2
        omega
      have hhead : asciiUpper 0xD801 = 0xD801 := by decide
      rw [deseretUpper_pair h, deseretUpper_cons hcapital, hhead, deseretUpper_of_ne hne,
        asciiUpper_of_surrogate hsurrogate, ih]
  | case4 u v t h ih =>
      have hsmall : isDeseretSmall u v = false := Bool.eq_false_of_not_eq_true h
      obtain ⟨t', ht'⟩ := deseretUpper_head v t
      have hkept : isDeseretSmall (asciiUpper u) (asciiUpper v) = false := by
        rw [isDeseretSmall_asciiUpper, hsmall]
      rw [deseretUpper_cons hsmall, ht', deseretUpper_cons hkept, asciiUpper_again, ← ht', ih]

/-- What holds of all capitals and of the images of single units holds of the
    result. -/
theorem forall_deseretUpper {P Q : CodeUnit → Prop} {s : JsString}
    (hunit : ∀ u, P u → Q (asciiUpper u)) (hsurrogate : ∀ u, isSurrogate u = true → Q u)
    (h : ∀ u ∈ s, P u) : ∀ v ∈ deseretUpper s, Q v := by
  induction s using deseretUpper.induct with
  | case1 => exact fun v hv => absurd hv (List.not_mem_nil)
  | case2 u =>
      intro v hv
      rw [deseretUpper, List.mem_singleton] at hv
      rw [hv]
      exact hunit u (h u (List.mem_singleton.mpr rfl))
  | case3 u v t hsmall ih =>
      have hu : isSurrogate u = true := by
        rw [(isDeseretSmall_iff.mp hsmall).1]
        decide
      intro w hw
      rw [deseretUpper_pair hsmall, List.mem_cons, List.mem_cons] at hw
      rcases hw with rfl | rfl | hw
      · exact hsurrogate _ hu
      · exact hsurrogate _ (val_capital hsmall).2.1
      · exact ih (fun x hx => h x (List.mem_cons_of_mem _ (List.mem_cons_of_mem _ hx))) w hw
  | case4 u v t hsmall ih =>
      intro w hw
      rw [deseretUpper_cons (Bool.eq_false_of_not_eq_true hsmall), List.mem_cons] at hw
      rcases hw with rfl | hw
      · exact hunit u (h u (List.mem_cons_self ..))
      · exact ih (fun x hx => h x (List.mem_cons_of_mem _ hx)) w hw

theorem exists_surrogate_deseretUpper {s : JsString} (h : ∃ u ∈ s, isSurrogate u = true) :
    ∃ v ∈ deseretUpper s, isSurrogate v = true := by
  induction s using deseretUpper.induct with
  | case1 =>
      obtain ⟨u, hu, -⟩ := h
      cases hu
  | case2 u =>
      obtain ⟨v, hv, hsurrogate⟩ := h
      obtain rfl := List.mem_singleton.mp hv
      refine ⟨_, List.mem_singleton.mpr rfl, ?_⟩
      rw [asciiUpper_of_surrogate hsurrogate, hsurrogate]
  | case3 u v t hsmall ih =>
      rw [deseretUpper_pair hsmall]
      exact ⟨_, List.mem_cons_of_mem _ (List.mem_cons_self ..), (val_capital hsmall).2.1⟩
  | case4 u v t hsmall ih =>
      obtain ⟨w, hw, hsurrogate⟩ := h
      rw [deseretUpper_cons (Bool.eq_false_of_not_eq_true hsmall)]
      rcases List.mem_cons.mp hw with rfl | hw
      · refine ⟨_, List.mem_cons_self .., ?_⟩
        rw [asciiUpper_of_surrogate hsurrogate, hsurrogate]
      · obtain ⟨x, hx, hxs⟩ := ih ⟨w, hw, hsurrogate⟩
        exact ⟨x, List.mem_cons_of_mem _ hx, hxs⟩

theorem deseretUpper_cut {s t : JsString} (h : deseretUpper (s ++ t) = s ++ t) :
    deseretUpper s = s ∧ deseretUpper t = t := by
  -- a small letter is changed, which the hypothesis excludes
  have hmoved : ∀ {u v : CodeUnit} {r r' : JsString}, isDeseretSmall u v = true →
      u :: (v - 0x28) :: r ≠ u :: v :: r' := by
    intro u v r r' hsmall heq
    obtain ⟨hlow, hlow', -⟩ := isDeseretSmall_iff.mp hsmall
    have hval := (val_capital hsmall).1
    rw [(List.cons.inj (List.cons.inj heq).2).1] at hval
    omega
  induction s using deseretUpper.induct with
  | case1 => exact ⟨rfl, h⟩
  | case2 w =>
      cases t with
      | nil => exact ⟨h, rfl⟩
      | cons u t =>
          change deseretUpper (w :: u :: t) = w :: u :: t at h
          cases hwu : isDeseretSmall w u with
          | true =>
              rw [deseretUpper_pair hwu] at h
              exact absurd h (hmoved hwu)
          | false =>
              rw [deseretUpper_cons hwu] at h
              obtain ⟨hw, ht⟩ := List.cons.inj h
              exact ⟨congrArg (fun v => [v]) hw, ht⟩
  | case3 u v s hsmall ih =>
      change deseretUpper (u :: v :: (s ++ t)) = u :: v :: (s ++ t) at h
      rw [deseretUpper_pair hsmall] at h
      exact absurd h (hmoved hsmall)
  | case4 u v s hsmall ih =>
      have hsmall' := Bool.eq_false_of_not_eq_true hsmall
      change deseretUpper (u :: v :: (s ++ t)) = u :: v :: (s ++ t) at h
      rw [deseretUpper_cons hsmall'] at h
      obtain ⟨hu, hrest⟩ := List.cons.inj h
      obtain ⟨hs, ht⟩ := ih hrest
      refine ⟨?_, ht⟩
      rw [deseretUpper_cons hsmall', hu, hs]

theorem deseretUpper_ascii {s : JsString} (h : IsAscii s) : deseretUpper s = s.map asciiUpper := by
  induction s with
  | nil => rfl
  | cons u s ih =>
      have hu : u ≠ 0xD801 := by
        rintro rfl
        exact absurd (h _ (List.mem_cons_self ..)) (by decide)
      rw [deseretUpper_of_ne hu, ih fun v hv => h v (List.mem_cons_of_mem _ hv), List.map_cons]

def CaseMapping.deseret : CaseMapping :=
  ⟨List.map asciiLower, deseretUpper, CaseMapping.ascii.lower_ascii, fun _ => deseretUpper_ascii⟩

theorem upper_deseret : CaseMapping.deseret.Upper where
  append s _ _ t h := deseretUpper_append s t h
  separator u h := congrArg (fun v => [v]) (asciiUpper_separator h)
  noSeparator _ h := by
    refine forall_deseretUpper (fun _ => isSeparator_asciiUpper) (fun u hu => ?_) h
    by_contra hne
    rw [isSurrogate_of_isSeparator (Bool.eq_true_of_not_eq_false hne)] at hu
    cases hu
  surrogate _ := exists_surrogate_deseretUpper
  again := deseretUpper_again
  cut _ _ := deseretUpper_cut

end ZeroAuth.Js
