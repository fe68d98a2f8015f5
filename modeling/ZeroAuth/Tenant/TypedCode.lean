/-
  ZeroAuth.Tenant.TypedCode

  What a person may type for an enrollment code.

  `normaliseEnrollmentCode` makes a generated code of exactly those texts that
  are the code without its hyphens once white space and hyphens are dropped and
  letters are raised.  It does not always do nothing the second time: dropping a
  separator from between two lone surrogates makes a letter of them, which only
  the second call raises (`normalise_twice`).
-/

import Mathlib.Data.List.TakeWhile
import ZeroAuth.Js.UpperCase
import ZeroAuth.Tenant.Enrollment

namespace ZeroAuth.Tenant

open ZeroAuth.Lib ZeroAuth.Js
open ZeroAuth.Js.CaseMapping.Upper (Seam upper_nil)

/-- `s.replace(/[\s-]+/g, '')`. -/
def strip (s : JsString) : JsString := s.filter fun u => !isSeparator u

/-- The text with its hyphens, if it has the shape of a code. -/
def hyphenated (stripped : JsString) : JsString :=
  if (js "ZA").isPrefixOf stripped && stripped.length == 2 + codeGroups * codeGroupLen then
    codeText (stripped.drop 2)
  else stripped

theorem normaliseEnrollmentCode_eq (cm : CaseMapping) (raw : JsString) :
    normaliseEnrollmentCode cm raw = hyphenated (strip (cm.toUpperCase (trim raw))) := rfl

/-- What `generateEnrollmentCode` can return. -/
def IsCode (c : JsString) : Prop :=
  ∃ draws : List ℕ, draws.length = codeGroups * codeGroupLen ∧
    (∀ d ∈ draws, d < codeAlphabet.length) ∧ c = enrollmentCodeOf draws

/-- White space or hyphens stand between a high and a low surrogate. -/
def Joins (x : JsString) : Prop :=
  ∃ s h seps l t, x = s ++ h :: (seps ++ l :: t) ∧ isPair h l = true ∧ seps ≠ [] ∧
    ∀ u ∈ seps, isSeparator u = true

/-! ## Dropping separators -/

section Strip

variable {s t x : JsString} {u : CodeUnit}

theorem strip_append (s t : JsString) : strip (s ++ t) = strip s ++ strip t := List.filter_append ..

theorem strip_separator (h : isSeparator u = true) (t : JsString) : strip (u :: t) = strip t := by
  rw [strip, List.filter_cons_of_neg (by rw [h]; decide)]
  rfl

theorem strip_eq_self (h : ∀ u ∈ s, isSeparator u = false) : strip s = s := by
  refine List.filter_eq_self.mpr fun u hu => ?_
  rw [h u hu]
  rfl

theorem not_separator_of_mem_strip (h : u ∈ strip s) : isSeparator u = false := by
  have hkept := (List.mem_filter.mp h).2
  rwa [Bool.not_eq_true'] at hkept

theorem mem_strip (hu : u ∈ s) (h : isSeparator u = false) : u ∈ strip s := by
  refine List.mem_filter.mpr ⟨hu, ?_⟩
  rw [h]
  rfl

theorem isSeparator_of_isWhiteSpace (h : isWhiteSpace u = true) : isSeparator u = true := by
  rw [isSeparator, h, Bool.true_or]

/-- What `trim` takes off is white space. -/
theorem exists_trim (x : JsString) : ∃ a b, x = a ++ (trim x ++ b) ∧
    (∀ u ∈ a, isWhiteSpace u = true) ∧ ∀ u ∈ b, isWhiteSpace u = true := by
  refine ⟨x.takeWhile isWhiteSpace,
    ((x.dropWhile isWhiteSpace).reverse.takeWhile isWhiteSpace).reverse, ?_, ?_, ?_⟩
  · rw [trim, ← List.reverse_append, List.takeWhile_append_dropWhile, List.reverse_reverse,
      List.takeWhile_append_dropWhile]
  · exact fun u hu => (List.mem_takeWhile_imp hu)
  · intro u hu
    rw [List.mem_reverse] at hu
    exact List.mem_takeWhile_imp hu

end Strip

/-! ## Raising letters and dropping separators -/

section Upper

variable {cm : CaseMapping} (hcm : cm.Upper)

include hcm

/-- A separator divides the work. -/
theorem strip_upper_separator {u : CodeUnit} (hu : isSeparator u = true) (s t : JsString) :
    strip (cm.toUpperCase (s ++ u :: t)) =
      strip (cm.toUpperCase s) ++ strip (cm.toUpperCase t) := by
  rw [hcm.toUpperCase_separator hu, strip_append, strip_separator hu]

theorem strip_upper_left {a : JsString} (ha : ∀ u ∈ a, isSeparator u = true) (t : JsString) :
    strip (cm.toUpperCase (a ++ t)) = strip (cm.toUpperCase t) := by
  induction a with
  | nil => rfl
  | cons u a ih =>
      have hsplit := strip_upper_separator hcm (ha u (by simp)) [] (a ++ t)
      rw [upper_nil, ih fun v hv => ha v (by simp [hv])] at hsplit
      exact hsplit

theorem strip_upper_right {b : JsString} (hb : ∀ u ∈ b, isSeparator u = true) (t : JsString) :
    strip (cm.toUpperCase (t ++ b)) = strip (cm.toUpperCase t) := by
  cases b with
  | nil => rw [List.append_nil]
  | cons u b =>
      have hrest := strip_upper_left hcm (a := b) (fun v hv => hb v (by simp [hv])) []
      rw [List.append_nil, upper_nil] at hrest
      rw [strip_upper_separator hcm (hb u (by simp)), hrest]
      exact List.append_nil _

/-- `trim` makes no difference. -/
theorem strip_upper_trim (x : JsString) :
    strip (cm.toUpperCase (trim x)) = strip (cm.toUpperCase x) := by
  obtain ⟨a, b, hx, ha, hb⟩ := exists_trim x
  have hleft := strip_upper_left hcm (fun u hu => isSeparator_of_isWhiteSpace (ha u hu))
    (trim x ++ b)
  have hright := strip_upper_right hcm (fun u hu => isSeparator_of_isWhiteSpace (hb u hu)) (trim x)
  rw [← hx, hright] at hleft
  exact hleft.symm

/-- The two steps can be exchanged if no surrogates are joined: by induction on the
    length, from one separator to the next. -/
theorem strip_upper_eq {x : JsString} (hx : ¬Joins x) :
    strip (cm.toUpperCase x) = cm.toUpperCase (strip x) := by
  obtain ⟨n, hn⟩ : ∃ n, x.length = n := ⟨_, rfl⟩
  induction n using Nat.strongRecOn generalizing x with
  | ind n ih =>
      by_cases hnone : ∀ u ∈ x, isSeparator u = false
      · rw [strip_eq_self hnone, strip_eq_self (hcm.noSeparator x hnone)]
      · -- `s` has no separator, `u` is the first one
        obtain ⟨s, u, t, rfl, hs, hu⟩ : ∃ s u t, x = s ++ u :: t ∧
            (∀ v ∈ s, isSeparator v = false) ∧ isSeparator u = true := by
          have hsome : x.dropWhile (fun v => !isSeparator v) ≠ [] := by
            rw [Ne, List.dropWhile_eq_nil_iff]
            intro hall
            refine hnone fun v hv => ?_
            have hkept := hall v hv
            rwa [Bool.not_eq_true'] at hkept
          obtain ⟨u, t, hut⟩ := List.exists_cons_of_ne_nil hsome
          refine ⟨x.takeWhile (fun v => !isSeparator v), u, t, ?_, ?_, ?_⟩
          · rw [← hut, List.takeWhile_append_dropWhile]
          · intro v hv
            have hkept := List.mem_takeWhile_imp hv
            rwa [Bool.not_eq_true'] at hkept
          · have hhead := List.head_dropWhile_not (fun v => !isSeparator v) hsome
            simp only [hut, List.head_cons, Bool.not_eq_false'] at hhead
            exact hhead
        have ht : ¬Joins t := by
          rintro ⟨s', h, seps, l, t', rfl, hpair, hne, hseps⟩
          refine hx ⟨s ++ u :: s', h, seps, l, t', ?_, hpair, hne, hseps⟩
          rw [List.append_assoc, List.cons_append]
        have hseam : Seam s (strip t) := by
          intro h hh l hl
          by_contra hpair
          refine hx ?_
          obtain ⟨s', rfl⟩ := List.getLast?_eq_some_iff.mp hh
          obtain ⟨t₁, hstrip⟩ := List.head?_eq_some_iff.mp hl
          obtain ⟨a, b, rfl, ha, hlsep, -⟩ := List.filter_eq_cons_iff.mp hstrip
          refine ⟨s', h, u :: a, l, b, ?_, Bool.eq_true_of_not_eq_false hpair, by simp, ?_⟩
          · simp
          · intro v hv
            rcases List.mem_cons.mp hv with rfl | hv
            · exact hu
            · have hgone := ha v hv
              rw [Bool.not_eq_true'] at hgone
              exact Bool.eq_true_of_not_eq_false hgone
        have hlt : t.length < n := by
          rw [← hn, List.length_append, List.length_cons]
          omega
        rw [strip_upper_separator hcm hu, ih t.length hlt ht rfl, strip_append, strip_separator hu,
          strip_eq_self hs, strip_eq_self (hcm.noSeparator s hs), hcm.toUpperCase_append hseam]

end Upper

/-! ## Codes -/

/-- A symbol of a code is a capital or a digit. -/
def isCodeUnit (u : CodeUnit) : Bool :=
  !isSeparator u && decide (u.val < 0x80) && decide (u.val < 0x61 ∨ 0x7A < u.val)

theorem isCodeUnit_iff {u : CodeUnit} : isCodeUnit u = true ↔
    isSeparator u = false ∧ u.val < 0x80 ∧ (u.val < 0x61 ∨ 0x7A < u.val) := by
  rw [isCodeUnit, Bool.and_eq_true, Bool.and_eq_true, Bool.not_eq_true', decide_eq_true_eq,
    decide_eq_true_eq, and_assoc]

theorem codeAlphabet_plain {u : CodeUnit} (h : u ∈ codeAlphabet) :
    isSeparator u = false ∧ u.val < 0x80 ∧ (u.val < 0x61 ∨ 0x7A < u.val) := by
  have hall : codeAlphabet.all isCodeUnit = true := rfl
  exact isCodeUnit_iff.mp (List.all_eq_true.mp hall u h)

theorem prefix_plain {u : CodeUnit} (h : u ∈ js "ZA") :
    isSeparator u = false ∧ u.val < 0x80 ∧ (u.val < 0x61 ∨ 0x7A < u.val) := by
  have hall : (js "ZA").all isCodeUnit = true := rfl
  exact isCodeUnit_iff.mp (List.all_eq_true.mp hall u h)

/-- A code is `ZA` and eight symbols of the alphabet, with hyphens. -/
theorem IsCode.body {c : JsString} (h : IsCode c) :
    ∃ body, c = codeText body ∧ body.length = codeGroups * codeGroupLen ∧
      ∀ u ∈ body, u ∈ codeAlphabet := by
  obtain ⟨draws, hlength, hbound, rfl⟩ := h
  refine ⟨_, rfl, by rw [List.length_map, hlength], ?_⟩
  intro u hu
  obtain ⟨d, hd, rfl⟩ := List.mem_map.mp hu
  rw [List.getD_eq_getElem?_getD, List.getElem?_eq_getElem (hbound d hd), Option.getD_some]
  exact List.getElem_mem _

theorem strip_codeText {body : JsString} (h : ∀ u ∈ body, isSeparator u = false) :
    strip (codeText body) = js "ZA" ++ body := by
  have hfirst : strip (js "ZA-") = js "ZA" := rfl
  have htake : strip (body.take codeGroupLen) = body.take codeGroupLen :=
    strip_eq_self fun u hu => h u (List.mem_of_mem_take hu)
  have hdrop : strip (body.drop codeGroupLen) = body.drop codeGroupLen :=
    strip_eq_self fun u hu => h u (List.mem_of_mem_drop hu)
  rw [codeText, strip_append, strip_append, strip_separator (by decide), hfirst, htake, hdrop,
    List.append_assoc, List.take_append_drop]

theorem hyphen_mem_codeText (body : JsString) : (45 : CodeUnit) ∈ codeText body :=
  List.mem_append_right _ (List.mem_cons_self ..)

/-- A text without separators gets its hyphens exactly if it has the shape. -/
theorem hyphenated_eq_codeText_iff {stripped body : JsString}
    (hs : ∀ u ∈ stripped, isSeparator u = false) (hb : ∀ u ∈ body, isSeparator u = false)
    (hlength : body.length = codeGroups * codeGroupLen) :
    hyphenated stripped = codeText body ↔ stripped = js "ZA" ++ body := by
  unfold hyphenated
  constructor
  · intro h
    split at h
    · next hshape =>
        rw [Bool.and_eq_true] at hshape
        obtain ⟨rest, rfl⟩ := List.isPrefixOf_iff_prefix.mp hshape.1
        have hrest : (js "ZA" ++ rest).drop 2 = rest := rfl
        rw [hrest] at h
        have hsame := congrArg strip h
        rw [strip_codeText hb, strip_codeText fun u hu => hs u (List.mem_append_right _ hu)] at hsame
        exact hsame
    · have hhyphen := hs 45 (h ▸ hyphen_mem_codeText body)
      exact absurd hhyphen (by decide)
  · rintro rfl
    have hshape : ((js "ZA").isPrefixOf (js "ZA" ++ body) &&
        (js "ZA" ++ body).length == 2 + codeGroups * codeGroupLen) = true := by
      rw [Bool.and_eq_true, List.isPrefixOf_iff_prefix, beq_iff_eq, List.length_append, hlength]
      exact ⟨List.prefix_append _ _, rfl⟩
    rw [if_pos hshape]
    rfl

/-! ## The normaliser -/

/-- What is recognised as a generated code, and what a second call does. -/
structure TypedCodes (cm : CaseMapping) : Prop where
  recognised : ∀ x c, IsCode c → (normaliseEnrollmentCode cm x = c ↔
    cm.toUpperCase (strip x) = c.filter (· ≠ 45))
  twice : ∀ x, ¬Joins x →
    normaliseEnrollmentCode cm (normaliseEnrollmentCode cm x) = normaliseEnrollmentCode cm x

section Normalise

variable {cm : CaseMapping} (hcm : cm.Upper)

include hcm

theorem normalise_eq (x : JsString) :
    normaliseEnrollmentCode cm x = hyphenated (strip (cm.toUpperCase x)) := by
  rw [normaliseEnrollmentCode_eq, strip_upper_trim hcm]

/-- Either order of the two steps gives the same text of ASCII: a surrogate is not lost
    in either. -/
theorem strip_upper_eq_iff {x t : JsString} (ht : IsAscii t) :
    strip (cm.toUpperCase x) = t ↔ cm.toUpperCase (strip x) = t := by
  -- only where dropping the separators brings a surrogate pair together do the two differ,
  by_cases hx : Joins x
  · obtain ⟨s, h, seps, l, t', rfl, hpair, -⟩ := hx
    rw [isPair, Bool.and_eq_true] at hpair
    have hsurrogate : isSurrogate h = true := by
      rw [isSurrogate, hpair.1, Bool.true_or]
    have hin : h ∈ s ++ h :: (seps ++ l :: t') := by simp
    -- and then neither text is ASCII
    have hascii : ∀ v ∈ t, isSurrogate v = false := by
      intro v hv
      have hlt := ht v hv
      simp only [isSurrogate, isHigh, isLow, Bool.or_eq_false_iff, Bool.and_eq_false_iff,
        decide_eq_false_iff_not]
      omega
    -- a separator is no surrogate
    have hkept : isSeparator h = false := by
      by_contra hne
      rw [isSurrogate_of_isSeparator (Bool.eq_true_of_not_eq_false hne)] at hsurrogate
      cases hsurrogate
    constructor
    · rintro rfl
      obtain ⟨v, hv, hvs⟩ := hcm.surrogate _ ⟨h, hin, hsurrogate⟩
      have hvkept : isSeparator v = false := by
        by_contra hne
        rw [isSurrogate_of_isSeparator (Bool.eq_true_of_not_eq_false hne)] at hvs
        cases hvs
      rw [hascii v (mem_strip hv hvkept)] at hvs
      cases hvs
    · rintro rfl
      obtain ⟨v, hv, hvs⟩ := hcm.surrogate _ ⟨h, mem_strip hin hkept, hsurrogate⟩
      rw [hascii v hv] at hvs
      cases hvs
  · rw [strip_upper_eq hcm hx]

theorem normalise_eq_code_iff {x c : JsString} (hc : IsCode c) :
    normaliseEnrollmentCode cm x = c ↔ cm.toUpperCase (strip x) = c.filter (· ≠ 45) := by
  obtain ⟨body, rfl, hlength, hbody⟩ := hc.body
  have hsep : ∀ u ∈ body, isSeparator u = false := fun u hu => (codeAlphabet_plain (hbody u hu)).1
  have hfilter : (codeText body).filter (· ≠ 45) = js "ZA" ++ body := by
    have hplain : ∀ {s : JsString}, (∀ u ∈ s, isSeparator u = false) → s.filter (· ≠ 45) = s := by
      intro s hs
      refine List.filter_eq_self.mpr fun u hu => ?_
      have hne : u ≠ 45 := by
        rintro rfl
        exact absurd (hs 45 hu) (by decide)
      exact decide_eq_true hne
    have hfirst : (js "ZA-").filter (· ≠ 45) = js "ZA" := rfl
    rw [codeText, List.filter_append, List.filter_append, List.filter_cons_of_neg (by decide),
      hfirst, hplain fun u hu => hsep u (List.mem_of_mem_take hu),
      hplain fun u hu => hsep u (List.mem_of_mem_drop hu), List.append_assoc,
      List.take_append_drop]
  have hascii : IsAscii (js "ZA" ++ body) := by
    intro u hu
    rcases List.mem_append.mp hu with hu | hu
    · exact (prefix_plain hu).2.1
    · exact (codeAlphabet_plain (hbody u hu)).2.1
  rw [normalise_eq hcm, hfilter,
    hyphenated_eq_codeText_iff (fun u hu => not_separator_of_mem_strip hu) hsep hlength,
    strip_upper_eq_iff hcm hascii]

/-- Without joined surrogates the second call finds a text in upper case, which its
    hyphens do not change. -/
theorem normalise_normalise {x : JsString} (hx : ¬Joins x) :
    normaliseEnrollmentCode cm (normaliseEnrollmentCode cm x) = normaliseEnrollmentCode cm x := by
  have hsep : ∀ u ∈ strip (cm.toUpperCase x), isSeparator u = false :=
    fun u hu => not_separator_of_mem_strip hu
  have hraised : cm.toUpperCase (strip (cm.toUpperCase x)) = strip (cm.toUpperCase x) := by
    rw [strip_upper_eq hcm hx, hcm.again]
  have hkeep : strip (cm.toUpperCase (hyphenated (strip (cm.toUpperCase x)))) =
      strip (cm.toUpperCase x) := by
    generalize strip (cm.toUpperCase x) = s at hsep hraised
    unfold hyphenated
    split
    · next hshape =>
        rw [Bool.and_eq_true] at hshape
        obtain ⟨body, rfl⟩ := List.isPrefixOf_iff_prefix.mp hshape.1
        have hbody : (js "ZA" ++ body).drop 2 = body := rfl
        rw [← List.take_append_drop codeGroupLen body, ← List.append_assoc] at hraised
        obtain ⟨hfirst, hsecond⟩ := hcm.cut _ _ hraised
        obtain ⟨hza, htake⟩ := hcm.cut _ _ hfirst
        have hhyphen : isSeparator 45 = true := by decide
        have htext : codeText body =
            js "ZA" ++ 45 :: (body.take codeGroupLen ++ 45 :: body.drop codeGroupLen) := rfl
        rw [hbody, htext, hcm.toUpperCase_separator hhyphen, hcm.toUpperCase_separator hhyphen, hza,
          htake, hsecond, ← htext, strip_codeText fun u hu => hsep u (List.mem_append_right _ hu)]
    · rw [hraised, strip_eq_self hsep]
  rw [normalise_eq hcm x, normalise_eq hcm, hkeep]

theorem typed_codes : TypedCodes cm where
  recognised _ _ hc := normalise_eq_code_iff hcm hc
  twice _ hx := normalise_normalise hcm hx

/-- A code is its own normal form. -/
theorem normalise_code {c : JsString} (hc : IsCode c) : normaliseEnrollmentCode cm c = c := by
  obtain ⟨body, rfl, hlength, hbody⟩ := hc.body
  have hsep : ∀ u ∈ body, isSeparator u = false := fun u hu => (codeAlphabet_plain (hbody u hu)).1
  have hraised : ∀ u ∈ codeText body, u.val < 0x80 ∧ (u.val < 0x61 ∨ 0x7A < u.val) := by
    intro u hu
    have hmark : js "ZA-" = js "ZA" ++ [45] := rfl
    rw [codeText, hmark, List.mem_append, List.mem_append, List.mem_append, List.mem_singleton,
      List.mem_cons] at hu
    rcases hu with ((hu | rfl) | hu) | rfl | hu
    · exact (prefix_plain hu).2
    · exact ⟨by decide, by decide⟩
    · exact (codeAlphabet_plain (hbody u (List.mem_of_mem_take hu))).2
    · exact ⟨by decide, by decide⟩
    · exact (codeAlphabet_plain (hbody u (List.mem_of_mem_drop hu))).2
  have hself : cm.toUpperCase (codeText body) = codeText body := by
    rw [cm.upper_ascii _ fun u hu => (hraised u hu).1]
    have hmap : ∀ u ∈ codeText body, asciiUpper u = id u := by
      intro u hu
      have hletter := (hraised u hu).2
      exact if_neg (by omega)
    rw [List.map_congr_left hmap, List.map_id]
  rw [normalise_eq hcm, hself, strip_codeText hsep]
  refine (hyphenated_eq_codeText_iff (fun u hu => ?_) hsep hlength).mpr rfl
  rcases List.mem_append.mp hu with hu | hu
  · exact (prefix_plain hu).1
  · exact hsep u hu

end Normalise

end ZeroAuth.Tenant
