/-
  ZeroAuth.Console.WebhookHosts

  The hosts that the URL gate of `POST /webhooks` stops, against the internal ones.

  The gate compares texts.  Of the blocks 0.0.0.0/8, 127.0.0.0/8 and 169.254.0.0/16 it stops
  one address each; an IPv6 host is printed in brackets and never stopped; a domain may begin
  like a private address.  `Fits` says which hosts are treated right.
-/

import ZeroAuth.Console.Webhooks
import ZeroAuth.Lib.Words

namespace ZeroAuth.Console

open ZeroAuth.Js ZeroAuth.Lib

/-! ## Internal hosts -/

def thisNetwork : AddressBlock 32 := ⟨0x00000000, 8⟩
def loopback : AddressBlock 32 := ⟨0x7f000000, 8⟩
def private10 : AddressBlock 32 := ⟨0x0a000000, 8⟩
def private172 : AddressBlock 32 := ⟨0xac100000, 12⟩
def private192 : AddressBlock 32 := ⟨0xc0a80000, 16⟩
def linkLocal : AddressBlock 32 := ⟨0xa9fe0000, 16⟩

def internalIpv4 : List (AddressBlock 32) :=
  [thisNetwork, loopback, private10, private172, private192, linkLocal]

/-- `::1`, `fc00::/7` and `fe80::/10`. -/
def internalIpv6 : List (AddressBlock 128) :=
  [⟨1, 128⟩, ⟨0xfc00#16 ++ 0#112, 7⟩, ⟨0xfe80#16 ++ 0#112, 10⟩]

def InternalIpv4 (a : Ipv4) : Prop := ∃ block ∈ internalIpv4, block.Contains a

def InternalIpv6 (a : Ipv6) : Prop :=
  (∃ block ∈ internalIpv6, block.Contains a) ∨ ∃ v4, InternalIpv4 v4 ∧ Ipv6.mapped v4 = a

/-- `localhost` with or without the dot of the root, or an internal address. -/
def InternalHost : Host → Prop
  | .domain name => name.labels = js "localhost"
  | .ipv4 address => InternalIpv4 address
  | .ipv6 address => InternalIpv6 address
  | .other _ => False

/-! ## Stopped hosts -/

/-- The gate stops a web URL with this host. -/
def Blocked (host : JsString) : Prop := host ∈ blockedExact ∨ isPrivate host = true

instance (host : JsString) : Decidable (Blocked host) := inferInstanceAs (Decidable (_ ∨ _))

/-- The two digits of a number. -/
theorem numText_two : ∀ k < 100, 10 ≤ k →
    numText 10 k = [digitUnit (k / 10), digitUnit (k % 10)] := by decide

theorem isSecondOctet_digits : ∀ k < 32, 16 ≤ k →
    isSecondOctet (digitUnit (k / 10)) (digitUnit (k % 10)) = true := by decide

/-- The pattern for the second octet is passed by the numbers from 16 to 31. -/
theorem eq_numText_of_isSecondOctet {a b : CodeUnit} (h : isSecondOctet a b = true) :
    ∃ k, 16 ≤ k ∧ k ≤ 31 ∧ [a, b] = numText 10 k := by
  unfold isSecondOctet isDigit at h
  simp only [Bool.or_eq_true, Bool.and_eq_true, beq_iff_eq, decide_eq_true_eq] at h
  have hrange : 49 ≤ a.val ∧ a.val ≤ 51 ∧ 48 ≤ b.val ∧ b.val ≤ 57 ∧
      (a.val = 49 → 54 ≤ b.val) ∧ (a.val = 51 → b.val ≤ 49) := by
    rcases h with (⟨⟨rfl, h⟩, h'⟩ | ⟨rfl, h⟩) | ⟨⟨rfl, h⟩, h'⟩
    · exact ⟨by decide, by decide, by omega, by omega, fun _ => h, fun h => absurd h (by decide)⟩
    · exact ⟨by decide, by decide, h.1, h.2, fun h => absurd h (by decide),
        fun h => absurd h (by decide)⟩
    · exact ⟨by decide, by decide, h, by omega, fun h => absurd h (by decide), fun _ => h'⟩
  -- the number is read off the two digits
  let k := 10 * (a.val - 48) + (b.val - 48)
  have ha : a = digitUnit (k / 10) := Fin.ext (by rw [val_digitUnit (by omega)]; omega)
  have hb : b = digitUnit (k % 10) := Fin.ext (by rw [val_digitUnit (by omega)]; omega)
  refine ⟨k, by omega, by omega, ?_⟩
  rw [numText_two k (by omega) (by omega), ← ha, ← hb]

theorem isPrivate172_dotted {p q r s : ℕ} :
    isPrivate172 (dottedDecimal p q r s) = true ↔ p = 172 ∧ 16 ≤ q ∧ q ≤ 31 := by
  have h172 : numText 10 172 = [49, 55, 50] := by decide
  constructor
  · intro h
    unfold isPrivate172 at h
    split at h
    next a b rest htext =>
      obtain ⟨k, hk₁₆, hk₃₁, hab⟩ := eq_numText_of_isSecondOctet h
      have hprefix : numText 10 172 ++ 46 :: (numText 10 k ++ [46]) <+: dottedDecimal p q r s := by
        rw [htext, h172, ← hab]
        exact ⟨rest, rfl⟩
      obtain ⟨rfl, rfl⟩ := numText_prefix_dotted₂.mp hprefix
      exact ⟨rfl, hk₁₆, hk₃₁⟩
    next => cases h
  · rintro ⟨rfl, h₁₆, h₃₁⟩
    unfold dottedDecimal
    rw [h172, numText_two q (by omega) (by omega)]
    exact isSecondOctet_digits q (by omega) h₁₆

/-- The patterns, on a dotted decimal address. -/
theorem isPrivate_dotted {p q r s : ℕ} :
    isPrivate (dottedDecimal p q r s) = true ↔
      p = 10 ∨ (p = 192 ∧ q = 168) ∨ (p = 172 ∧ 16 ≤ q ∧ q ≤ 31) := by
  have h10 : js "10." = numText 10 10 ++ [46] := by decide
  have h192 : js "192.168." = numText 10 192 ++ 46 :: (numText 10 168 ++ [46]) := by decide
  unfold isPrivate
  rw [Bool.or_eq_true, Bool.or_eq_true, List.isPrefixOf_iff_prefix, List.isPrefixOf_iff_prefix,
    isPrivate172_dotted, h10, h192, numText_prefix_dotted, numText_prefix_dotted₂, or_assoc,
    eq_comm, @eq_comm _ 192, @eq_comm _ 168]

/-- The addresses that the gate stops. -/
theorem blocked_ipv4 {a : Ipv4} :
    Blocked a.text ↔ a = 0 ∨ a = 0x7f000001 ∨ a = 0xa9fea9fe ∨
      private10.Contains a ∨ private192.Contains a ∨ private172.Contains a := by
  have ha := a.isLt
  have hexact : a.text ∈ blockedExact ↔ a = 0 ∨ a = 0x7f000001 ∨ a = 0xa9fea9fe := by
    have hne : ∀ s ∈ [js "localhost", js "::1", js "metadata.google.internal"], a.text ≠ s := by
      intro s hs heq
      obtain ⟨u, rest, htext, hlo, hhi⟩ := head_dottedDecimal (a.octet 3) (a.octet 2) (a.octet 1)
        (a.octet 0)
      have hhead : ∀ s ∈ [js "localhost", js "::1", js "metadata.google.internal"],
          s.head?.all isDigit = false := by decide
      have hu : a.text.head?.all isDigit = isDigit u := by
        unfold Ipv4.text
        rw [htext]
        rfl
      have hdigit : isDigit u = true := by
        unfold isDigit
        rw [Bool.and_eq_true, decide_eq_true_eq, decide_eq_true_eq]
        omega
      rw [heq, hhead s hs, hdigit] at hu
      cases hu
    have h0 : js "0.0.0.0" = Ipv4.text 0 := by decide
    have h127 : js "127.0.0.1" = Ipv4.text 0x7f000001 := by decide
    have h169 : js "169.254.169.254" = Ipv4.text 0xa9fea9fe := by decide
    unfold blockedExact
    simp only [List.mem_cons, List.not_mem_nil, or_false, h0, h127, h169]
    constructor
    · rintro (h | h | h | h | h | h)
      · exact absurd h (hne _ (by simp))
      · exact Or.inl (Ipv4.text_injective h)
      · exact Or.inr (Or.inl (Ipv4.text_injective h))
      · exact Or.inr (Or.inr (Ipv4.text_injective h))
      · exact absurd h (hne _ (by simp))
      · exact absurd h (hne _ (by simp))
    · rintro (rfl | rfl | rfl)
      · exact Or.inr (Or.inl rfl)
      · exact Or.inr (Or.inr (Or.inl rfl))
      · exact Or.inr (Or.inr (Or.inr (Or.inl rfl)))
  have hprivate : isPrivate a.text = true ↔
      private10.Contains a ∨ private192.Contains a ∨ private172.Contains a := by
    unfold Ipv4.text
    rw [isPrivate_dotted, AddressBlock.contains_iff, AddressBlock.contains_iff,
      AddressBlock.contains_iff]
    unfold Ipv4.octet private10 private192 private172
    simp only [BitVec.reduceToNat, Nat.reducePow, Nat.reduceSub, Nat.reduceDiv]
    omega
  unfold Blocked
  rw [hexact, hprivate, or_assoc, or_assoc]

/-- No IPv6 host is stopped. -/
theorem not_blocked_ipv6 (a : Ipv6) : ¬ Blocked (Host.ipv6 a).text := by
  have hhead : ∀ s ∈ blockedExact, s.head? ≠ some 91 := by decide
  have h10 : js "10." = [49, 48, 46] := by decide
  have h192 : js "192.168." = [49, 57, 50, 46, 49, 54, 56, 46] := by decide
  have hbracket : ∀ x, isPrivate (91 :: x) = false := by
    intro x
    unfold isPrivate
    rw [h10, h192]
    rfl
  rintro (h | h)
  · exact hhead _ h rfl
  · rw [show (Host.ipv6 a).text = 91 :: (a.text ++ [93]) from rfl, hbracket] at h
    cases h

/-- A domain is none of the addresses in the list. -/
theorem blocked_domain {d : DomainName} :
    Blocked d.text ↔ d.text = js "localhost" ∨ d.text = js "metadata.google.internal" ∨
      isPrivate d.text = true := by
  have hnumber : ∀ s, endsInNumber s = true → d.text ≠ s := by
    intro s hs heq
    rw [← heq, d.notNumber] at hs
    cases hs
  have h0 : d.text ≠ js "0.0.0.0" := hnumber _ (by decide)
  have h127 : d.text ≠ js "127.0.0.1" := hnumber _ (by decide)
  have h169 : d.text ≠ js "169.254.169.254" := hnumber _ (by decide)
  have hcolon : d.text ≠ js "::1" := by
    intro heq
    have hunit := d.units 58 (by rw [heq]; decide)
    exact absurd hunit (by decide)
  unfold Blocked blockedExact
  simp only [List.mem_cons, List.not_mem_nil, or_false, h0, h127, h169, hcolon, false_or, or_assoc]

/-! ## The hosts that are treated right -/

/-- The gate stops the internal ones of these hosts, and of the domains only the two. -/
def Fits : Host → Prop
  | .domain name => name.text ≠ js "localhost." ∧ isPrivate name.text = false
  | .ipv4 address =>
      (thisNetwork.Contains address → address = 0) ∧
        (loopback.Contains address → address = 0x7f000001) ∧
        (linkLocal.Contains address → address = 0xa9fea9fe)
  | .ipv6 address => ¬ InternalIpv6 address
  | .other _ => True

/-- A DNS name that the gate is to stop. -/
def NamedHost (d : DomainName) : Prop :=
  d.labels = js "localhost" ∨ d.labels = js "metadata.google.internal"

theorem fits_domain {d : DomainName} :
    Fits (.domain d) ↔
      (d.labels = js "localhost" → Blocked d.text) ∧ (¬ NamedHost d → ¬ Blocked d.text) := by
  have hlabels : d.labels = js "localhost" ↔ d.text = js "localhost" ∨ d.text = js "localhost." :=
    DomainName.labels_eq_iff (by decide)
  have hmeta : d.labels = js "metadata.google.internal" ↔
      d.text = js "metadata.google.internal" ∨ d.text = js "metadata.google.internal." :=
    DomainName.labels_eq_iff (by decide)
  show d.text ≠ js "localhost." ∧ isPrivate d.text = false ↔ _
  unfold NamedHost
  rw [hlabels, hmeta, blocked_domain]
  constructor
  · rintro ⟨hdot, hprivate⟩
    rw [hprivate]
    constructor
    · rintro (h | h)
      · exact Or.inl h
      · exact absurd h hdot
    · rintro hnamed (h | h | h)
      · exact hnamed (Or.inl (Or.inl h))
      · exact hnamed (Or.inr (Or.inl h))
      · cases h
  · rintro ⟨hlocal, hnames⟩
    constructor
    · intro h
      rw [h] at hlocal
      exact absurd (hlocal (Or.inr rfl)) (by decide)
    · by_contra hprivate
      have hprivate : isPrivate d.text = true := Bool.eq_true_of_not_eq_false hprivate
      -- a name that begins with a digit is neither of the two
      have hnamed : ∀ s, isPrivate s = false → d.text ≠ s := by
        intro s hs heq
        rw [heq, hs] at hprivate
        cases hprivate
      refine hnames ?_ (Or.inr (Or.inr hprivate))
      rintro ((h | h) | (h | h)) <;> exact hnamed _ (by decide) h

theorem fits_ipv4 {a : Ipv4} :
    Fits (.ipv4 a) ↔ (InternalHost (.ipv4 a) → Blocked a.text) := by
  have hcontains : InternalHost (.ipv4 a) ↔ thisNetwork.Contains a ∨ loopback.Contains a ∨
      private10.Contains a ∨ private172.Contains a ∨ private192.Contains a ∨
      linkLocal.Contains a := by
    show (∃ b ∈ internalIpv4, _) ↔ _
    simp [internalIpv4]
  show (thisNetwork.Contains a → a = 0) ∧ (loopback.Contains a → a = 0x7f000001) ∧
    (linkLocal.Contains a → a = 0xa9fea9fe) ↔ _
  rw [hcontains, blocked_ipv4]
  have ha := a.isLt
  -- the blocks are disjoint intervals
  simp only [AddressBlock.contains_iff, thisNetwork, loopback, private10, private172, private192,
    linkLocal, ← BitVec.toNat_inj, BitVec.reduceToNat, Nat.reducePow, Nat.reduceSub, Nat.reduceDiv]
  omega

/-- The two wishes, for a host. -/
theorem fits_iff {host : Host} (hhost : ∀ text, host ≠ .other text) :
    Fits host ↔ (InternalHost host → Blocked host.text) ∧
      ∀ d, host = .domain d → ¬ NamedHost d → ¬ Blocked host.text := by
  cases host with
  | domain d =>
    refine fits_domain.trans (and_congr_right fun _ => ⟨?_, fun h => h d rfl⟩)
    intro h d' hd
    cases hd
    exact h
  | ipv4 a => exact fits_ipv4.trans (and_iff_left nofun).symm
  | ipv6 a =>
    refine Iff.trans ?_ (and_iff_left nofun).symm
    exact ⟨fun h hin => absurd hin h, fun h hin => not_blocked_ipv6 a (h hin)⟩
  | other text => exact absurd rfl (hhost text)

end ZeroAuth.Console
