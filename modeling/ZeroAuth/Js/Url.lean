/-
  ZeroAuth.Js.Url

  Parsed URLs as the URL standard has them: the kinds of hosts, and `url.hostname`, which
  prints an IPv4 address in dotted decimal and an IPv6 address in brackets.

  A last label that reads as a number makes a host an IPv4 address, so no domain looks like
  a dotted decimal address.
-/

import ZeroAuth.Js.Json

namespace ZeroAuth.Js

/-! ## Domains -/

/-- A code unit of a domain: ASCII, in lower case and not a forbidden domain code point. -/
def isDomainUnit (u : CodeUnit) : Bool :=
  0x20 < u.val && u.val < 0x7F && !(0x41 ≤ u.val && u.val ≤ 0x5A) && !(js "#/:<>?@[\\]^|%").contains u

/-- The last label of a host, leaving out a trailing dot. -/
def lastLabel (s : JsString) : JsString :=
  let s := if s.getLast? = some 46 then s.dropLast else s
  (s.reverse.takeWhile (· ≠ 46)).reverse

/-- The ends-in-a-number check. -/
def endsInNumber (s : JsString) : Bool :=
  let label := lastLabel s
  (!label.isEmpty && label.all isDigit) ||
    ((label.take 2 == js "0x" || label.take 2 == js "0X") &&
      (label.drop 2).all fun u => (digitIn 16 u).isSome)

structure DomainName where
  text : JsString
  nonempty : text ≠ []
  units : ∀ u ∈ text, isDomainUnit u = true
  notNumber : endsInNumber text = false

/-- The name without the dot of the root. -/
def DomainName.labels (d : DomainName) : JsString :=
  if d.text.getLast? = some 46 then d.text.dropLast else d.text

/-! ## IP addresses -/

abbrev Ipv4 := BitVec 32

/-- The `i`-th octet from the right. -/
def Ipv4.octet (a : Ipv4) (i : ℕ) : ℕ := a.toNat / 256 ^ i % 256

/-- Four numbers in dotted decimal. -/
def dottedDecimal (p q r s : ℕ) : JsString :=
  numText 10 p ++ 46 :: (numText 10 q ++ 46 :: (numText 10 r ++ 46 :: numText 10 s))

def Ipv4.text (a : Ipv4) : JsString := dottedDecimal (a.octet 3) (a.octet 2) (a.octet 1) (a.octet 0)

abbrev Ipv6 := BitVec 128

/-- The eight pieces, from the left. -/
def Ipv6.pieces (a : Ipv6) : List ℕ :=
  (List.range 8).map fun i => a.toNat / 65536 ^ (7 - i) % 65536

/-- The first longest run of two or more zeros: where it starts and how long it is. -/
def longestZeros (pieces : List ℕ) : Option (ℕ × ℕ) :=
  (List.range pieces.length).foldl
    (fun best i =>
      let n := ((pieces.drop i).takeWhile (· = 0)).length
      if best.elim 1 (·.2) < n then some (i, n) else best)
    none

/-- Pieces in hexadecimal, joined by colons. -/
def colonHex : List ℕ → JsString
  | [] => []
  | [piece] => numText 16 piece
  | piece :: pieces => numText 16 piece ++ 58 :: colonHex pieces

/-- The text between the brackets. -/
def Ipv6.text (a : Ipv6) : JsString :=
  match longestZeros a.pieces with
  | none => colonHex a.pieces
  | some (i, n) => colonHex (a.pieces.take i) ++ 58 :: 58 :: colonHex (a.pieces.drop (i + n))

/-- `::ffff:a`. -/
def Ipv6.mapped (a : Ipv4) : Ipv6 := 0xffff#96 ++ a

/-! ## URLs -/

/-- `other` is the host of a URL whose scheme is not special, or no host. -/
inductive Host
  | domain (name : DomainName)
  | ipv4 (address : Ipv4)
  | ipv6 (address : Ipv6)
  | other (text : JsString)

/-- The host serializer. -/
def Host.text : Host → JsString
  | domain name => name.text
  | ipv4 address => address.text
  | ipv6 address => 91 :: address.text ++ [93]
  | other text => text

structure Url where
  scheme : JsString
  host : Host
  /-- A web URL has a domain or an address. -/
  web : scheme = js "http" ∨ scheme = js "https" → ∀ text, host ≠ .other text

namespace Url

def protocol (url : Url) : JsString := url.scheme ++ js ":"

def hostname (url : Url) : JsString := url.host.text

def IsWeb (url : Url) : Prop := url.scheme = js "http" ∨ url.scheme = js "https"

end Url

/-! ## Reading a printed host -/

theorem numText_injective {m n : ℕ} (h : numText 10 m = numText 10 n) : m = n := by
  have hm := readDigits_numText (b := 10) (by omega) (by omega) m
  rw [h, readDigits_numText (by omega) (by omega) n] at hm
  exact (Option.some.inj hm).symm

theorem dot_not_mem_numText (n : ℕ) : (46 : CodeUnit) ∉ numText 10 n := by
  intro h
  exact absurd (val_of_mem_numText h).1 (by decide)

/-- The number before the first dot. -/
theorem numText_dot_inj {m n : ℕ} {x y : JsString}
    (h : numText 10 m ++ 46 :: x = numText 10 n ++ 46 :: y) : m = n ∧ x = y := by
  have htake : ∀ (k : ℕ) (z : JsString),
      (numText 10 k ++ 46 :: z).takeWhile (· ≠ 46) = numText 10 k := by
    intro k z
    rw [List.takeWhile_append_of_pos fun u hu => by
      simpa using fun heq : u = 46 => dot_not_mem_numText k (heq ▸ hu)]
    simp
  have hmn : numText 10 m = numText 10 n := by rw [← htake m x, h, htake n y]
  rw [hmn, List.append_cancel_left_eq, List.cons.injEq] at h
  exact ⟨numText_injective hmn, h.2⟩

theorem dottedDecimal_inj {p q r s p' q' r' s' : ℕ}
    (h : dottedDecimal p q r s = dottedDecimal p' q' r' s') :
    p = p' ∧ q = q' ∧ r = r' ∧ s = s' := by
  obtain ⟨hp, h⟩ := numText_dot_inj h
  obtain ⟨hq, h⟩ := numText_dot_inj h
  obtain ⟨hr, h⟩ := numText_dot_inj h
  exact ⟨hp, hq, hr, numText_injective h⟩

/-- A prefix that ends in a dot is the first number. -/
theorem numText_prefix_dotted {k p q r s : ℕ} :
    numText 10 k ++ [46] <+: dottedDecimal p q r s ↔ k = p := by
  constructor
  · rintro ⟨x, hx⟩
    rw [List.append_assoc] at hx
    exact (numText_dot_inj hx).1
  · rintro rfl
    exact ⟨numText 10 q ++ 46 :: (numText 10 r ++ 46 :: numText 10 s), List.append_assoc _ _ _⟩

theorem numText_prefix_dotted₂ {k l p q r s : ℕ} :
    numText 10 k ++ 46 :: (numText 10 l ++ [46]) <+: dottedDecimal p q r s ↔ k = p ∧ l = q := by
  constructor
  · rintro ⟨x, hx⟩
    rw [List.append_assoc, List.cons_append, List.append_assoc] at hx
    obtain ⟨hk, hx⟩ := numText_dot_inj hx
    exact ⟨hk, (numText_dot_inj hx).1⟩
  · rintro ⟨rfl, rfl⟩
    exact ⟨numText 10 r ++ 46 :: numText 10 s, by
      unfold dottedDecimal
      rw [List.append_assoc, List.cons_append, List.append_assoc]
      rfl⟩

/-- The first code unit of a dotted decimal address is a digit. -/
theorem head_dottedDecimal (p q r s : ℕ) :
    ∃ u rest, dottedDecimal p q r s = u :: rest ∧ 48 ≤ u.val ∧ u.val < 58 := by
  unfold dottedDecimal
  cases hp : numText 10 p with
  | nil => exact absurd hp (numText_ne_nil 10 p)
  | cons u rest =>
    exact ⟨u, _, rfl, val_of_mem_numText (by rw [hp]; exact List.mem_cons_self)⟩

/-! ## Case -/

/-- ASCII without capitals. -/
def IsLower (s : JsString) : Prop := ∀ u ∈ s, u.val < 0x80 ∧ asciiLower u = u

theorem CaseMapping.lower_of_isLower (cm : CaseMapping) {s : JsString} (h : IsLower s) :
    cm.toLowerCase s = s := by
  rw [cm.lower_ascii s fun u hu => (h u hu).1]
  exact (List.map_congr_left fun u hu => (h u hu).2).trans (List.map_id _)

theorem IsLower.append {s s' : JsString} (h : IsLower s) (h' : IsLower s') : IsLower (s ++ s') := by
  intro u hu
  rcases List.mem_append.mp hu with hu | hu
  · exact h u hu
  · exact h' u hu

theorem isLower_nil : IsLower [] := nofun

theorem IsLower.cons {u : CodeUnit} {s : JsString} (hu : u.val < 0x80 ∧ asciiLower u = u)
    (hs : IsLower s) : IsLower (u :: s) := by
  intro v hv
  rcases List.mem_cons.mp hv with rfl | hv
  · exact hu
  · exact hs v hv

theorem isLower_numText {b : ℕ} (hb₂ : 2 ≤ b) (hb : b ≤ 16) (n : ℕ) : IsLower (numText b n) := by
  intro u hu
  obtain ⟨d, hd, rfl⟩ := mem_numText hb₂ hu
  have hall : ∀ d < 16, (digitUnit d).val < 0x80 ∧ asciiLower (digitUnit d) = digitUnit d := by
    decide
  exact hall d (by omega)

theorem isLower_dottedDecimal (p q r s : ℕ) : IsLower (dottedDecimal p q r s) := by
  have hnum : ∀ n, IsLower (numText 10 n) := isLower_numText (by omega) (by omega)
  have hdot : (46 : CodeUnit).val < 0x80 ∧ asciiLower 46 = 46 := by decide
  have hlast := ((hnum r).append ((hnum s).cons hdot)).cons hdot
  exact (hnum p).append (((hnum q).append hlast).cons hdot)

theorem isLower_colonHex : ∀ pieces : List ℕ, IsLower (colonHex pieces)
  | [] => isLower_nil
  | [piece] => isLower_numText (by omega) (by omega) piece
  | piece :: next :: pieces =>
    (isLower_numText (by omega) (by omega) piece).append
      ((isLower_colonHex (next :: pieces)).cons (by decide))

theorem Ipv6.isLower (a : Ipv6) : IsLower a.text := by
  unfold Ipv6.text
  split
  · exact isLower_colonHex _
  · exact (isLower_colonHex _).append (((isLower_colonHex _).cons (by decide)).cons (by decide))

theorem DomainName.isLower (d : DomainName) : IsLower d.text := by
  intro u hu
  have h := d.units u hu
  unfold isDomainUnit at h
  simp only [Bool.and_eq_true, decide_eq_true_eq, Bool.not_eq_true', Bool.and_eq_false_iff,
    decide_eq_false_iff_not] at h
  refine ⟨by omega, ?_⟩
  unfold asciiLower
  rw [if_neg (by omega)]

/-- The host of a web URL is printed in lower case. -/
theorem Url.lower_hostname (cm : CaseMapping) {url : Url} (h : url.IsWeb) :
    cm.toLowerCase url.hostname = url.host.text := by
  apply cm.lower_of_isLower
  show IsLower url.host.text
  cases hhost : url.host with
  | domain name => exact name.isLower
  | ipv4 address => exact isLower_dottedDecimal _ _ _ _
  | ipv6 address => exact (address.isLower.append (isLower_nil.cons (by decide))).cons (by decide)
  | other text => exact absurd hhost (url.web h text)

/-! ## Addresses are told apart by their text -/

theorem Ipv4.text_injective {a b : Ipv4} (h : a.text = b.text) : a = b := by
  obtain ⟨h₃, h₂, h₁, h₀⟩ := dottedDecimal_inj h
  unfold Ipv4.octet at h₀ h₁ h₂ h₃
  have ha := a.isLt
  have hb := b.isLt
  apply BitVec.eq_of_toNat_eq
  omega

/-- The names that are `s` up to a trailing dot. -/
theorem DomainName.labels_eq_iff {d : DomainName} {s : JsString} (hs : s.getLast? ≠ some 46) :
    d.labels = s ↔ d.text = s ∨ d.text = s ++ [46] := by
  unfold DomainName.labels
  split
  next hdot =>
    have htext : d.text = d.text.dropLast ++ [46] :=
      (List.dropLast_append_getLast? 46 hdot).symm
    constructor
    · rintro rfl
      exact Or.inr htext
    · rintro (h | h)
      · exact absurd (h ▸ hdot) hs
      · rw [h, List.dropLast_concat]
  next hdot =>
    constructor
    · exact Or.inl
    · rintro (h | h)
      · exact h
      · exact absurd (by rw [h, List.getLast?_concat]) hdot

end ZeroAuth.Js
