/-
  ZeroAuth.Console.Policy

  A tenant's security policy: the providers it resolves to
  (src/services/tenant-providers.ts), and the checks and the merge of
  POST /security-policy (src/routes/console-security-policy.ts).

  A policy is a JSON object without an order of its keys.
-/

import Mathlib.Data.Finmap
import ZeroAuth.Js.Json

namespace ZeroAuth.Console

open ZeroAuth.Js

abbrev Policy := Finmap fun _ : JsString => Json

/-! ## Providers -/

def didProviders : List JsString :=
  [js "off-chain", js "base-sepolia", js "base-mainnet", js "custom-chain"]

def verifierProviders : List JsString := [js "off-chain", js "on-chain"]

def auditAnchorProviders : List JsString :=
  [js "none", js "signed-transcript", js "base-sepolia", js "base-mainnet", js "witness-cosign"]

structure ResolvedProviders where
  didProvider : JsString
  verifierProvider : JsString
  auditAnchorProvider : JsString
  baseRpcUrl : Option JsString
  didRegistryAddress : Option JsString
  groth16VerifierAddress : Option JsString
  auditAnchorContractAddress : Option JsString

def defaultProviders : ResolvedProviders :=
  ⟨js "off-chain", js "off-chain", js "none", none, none, none, none⟩

/-- `pickDidProvider` and its siblings. -/
def pickProvider (allowed : List JsString) (fallback : JsString) : Option Json → JsString
  | some (.str s) => if s ∈ allowed then s else fallback
  | _ => fallback

def pickString : Option Json → Option JsString
  | some (.str s) => if s ≠ [] then some s else none
  | _ => none

def resolveProviders (policy : Policy) : ResolvedProviders where
  didProvider :=
    pickProvider didProviders defaultProviders.didProvider (policy.lookup (js "did_provider"))
  verifierProvider :=
    pickProvider verifierProviders defaultProviders.verifierProvider
      (policy.lookup (js "verifier_provider"))
  auditAnchorProvider :=
    pickProvider auditAnchorProviders defaultProviders.auditAnchorProvider
      (policy.lookup (js "audit_anchor_provider"))
  baseRpcUrl := pickString (policy.lookup (js "base_rpc_url"))
  didRegistryAddress := pickString (policy.lookup (js "did_registry_address"))
  groth16VerifierAddress := pickString (policy.lookup (js "groth16_verifier_address"))
  auditAnchorContractAddress := pickString (policy.lookup (js "audit_anchor_contract_address"))

/-! ## Answers -/

/-- The body of a 200. -/
structure PolicyView where
  policy : ResolvedProviders
  auditAnchorSigningKeyId : Option JsString
  defaults : ResolvedProviders

inductive PolicyResponse
  | updated (view : PolicyView)
  | error (status : ℕ) (code message : JsString)

def PolicyResponse.status : PolicyResponse → ℕ
  | updated _ => 200
  | error status _ _ => status

def policyView (after : Policy) : PolicyView :=
  ⟨resolveProviders after, pickString (after.lookup (js "audit_anchor_signing_key_id")), defaultProviders⟩

/-! ## Checks -/

/-- `req.body ?? {}`. -/
def requestBody : Option Json → Json
  | none | some .null => .obj []
  | some body => body

/-- The provider slots with their allow-lists. -/
def enumFields : List (JsString × List JsString) :=
  [(js "did_provider", didProviders), (js "verifier_provider", verifierProviders),
    (js "audit_anchor_provider", auditAnchorProviders)]

def stringFields : List JsString :=
  [js "base_rpc_url", js "did_registry_address", js "groth16_verifier_address",
    js "audit_anchor_contract_address", js "audit_anchor_signing_key_id"]

/-- `values.join(', ')`. -/
def joinList : List JsString → JsString
  | [] => []
  | [x] => x
  | x :: y :: xs => x ++ js ", " ++ joinList (y :: xs)

def enumError (body : Json) (field : JsString × List JsString) : Option PolicyResponse :=
  let invalid : PolicyResponse :=
    .error 400 (js "invalid_" ++ field.1) (field.1 ++ js " must be one of: " ++ joinList field.2)
  match body.get? field.1 with
  | none => none
  | some (.str s) => if s ∈ field.2 then none else some invalid
  | some _ => some invalid

def stringError (body : Json) (field : JsString) : Option PolicyResponse :=
  match body.get? field with
  | none | some .null | some (.str _) => none
  | some _ => some (.error 400 (js "invalid_" ++ field) (field ++ js " must be a string or null."))

/-- The first check that fails. -/
def validate (body : Json) : Option PolicyResponse :=
  match body with
  | .obj _ => (enumFields.findSome? (enumError body)).or (stringFields.findSome? (stringError body))
  | _ => some (.error 400 (js "invalid_request") (js "Body must be a JSON object."))

/-- Every failed check is answered 400. -/
theorem status_of_validate {body : Json} {response : PolicyResponse}
    (h : validate body = some response) : response.status = 400 := by
  have henum : ∀ field r, enumError body field = some r → r.status = 400 := by
    intro field r hr
    rw [enumError] at hr
    split at hr
    · cases hr
    · split at hr
      · cases hr
      · cases hr
        rfl
    · cases hr
      rfl
  have hstring : ∀ field r, stringError body field = some r → r.status = 400 := by
    intro field r hr
    rw [stringError] at hr
    split at hr
    · cases hr
    · cases hr
    · cases hr
    · cases hr
      rfl
  rw [validate.eq_def] at h
  split at h
  · rcases Option.or_eq_some_iff.mp h with h | ⟨-, h⟩
    · obtain ⟨field, -, hr⟩ := List.exists_of_findSome?_eq_some h
      exact henum field response hr
    · obtain ⟨field, -, hr⟩ := List.exists_of_findSome?_eq_some h
      exact hstring field response hr
  · cases h
    rfl

/-! ## The merge -/

def setEnum (body : Json) (policy : Policy) (field : JsString) : Policy :=
  match body.get? field with
  | some v => policy.insert field v
  | none => policy

/-- `null` clears the field. -/
def setString (body : Json) (policy : Policy) (field : JsString) : Policy :=
  match body.get? field with
  | some .null => policy.erase field
  | some (.str s) => policy.insert field (.str s)
  | _ => policy

def mergePolicy (before : Policy) (body : Json) : Policy :=
  stringFields.foldl (setString body) ((enumFields.map Prod.fst).foldl (setEnum body) before)

/-- What a body does to a field: `none` leaves it, `some none` clears it. -/
def enumChange (body : Json) (field : JsString) : Option (Option Json) := (body.get? field).map some

def stringChange (body : Json) (field : JsString) : Option (Option Json) :=
  match body.get? field with
  | some .null => some none
  | some (.str s) => some (some (.str s))
  | _ => none

def change (body : Json) (field : JsString) : Option (Option Json) :=
  if field ∈ stringFields then stringChange body field
  else if field ∈ enumFields.map Prod.fst then enumChange body field
  else none

theorem lookup_setEnum (body : Json) (p : Policy) (f f' : JsString) :
    (setEnum body p f).lookup f' = if f' = f then (enumChange body f).getD (p.lookup f) else p.lookup f' := by
  rw [setEnum, enumChange]
  cases body.get? f with
  | none =>
      dsimp only
      split
      · next heq => rw [heq, Option.map_none, Option.getD_none]
      · rfl
  | some v =>
      dsimp only
      split
      · next heq => rw [heq, Finmap.lookup_insert, Option.map_some, Option.getD_some]
      · next hne => exact Finmap.lookup_insert_of_ne p hne

theorem lookup_setString (body : Json) (p : Policy) (f f' : JsString) :
    (setString body p f).lookup f' =
      if f' = f then (stringChange body f).getD (p.lookup f) else p.lookup f' := by
  rw [setString, stringChange]
  split
  · split
    · next heq => rw [heq, Finmap.lookup_erase, Option.getD_some]
    · next hne => exact Finmap.lookup_erase_ne hne
  · split
    · next heq => rw [heq, Finmap.lookup_insert, Option.getD_some]
    · next hne => exact Finmap.lookup_insert_of_ne p hne
  · split
    · next heq => rw [heq, Option.getD_none]
    · rfl

/-- Setting fields one after the other sets each of them. -/
theorem lookup_foldl {set : Policy → JsString → Policy} {effect : JsString → Option (Option Json)}
    (hset : ∀ p f f', (set p f).lookup f' = if f' = f then (effect f).getD (p.lookup f) else p.lookup f')
    (fields : List JsString) (p : Policy) (f : JsString) :
    (fields.foldl set p).lookup f = if f ∈ fields then (effect f).getD (p.lookup f) else p.lookup f := by
  induction fields generalizing p with
  | nil => simp
  | cons g fields ih =>
      rw [List.foldl_cons, ih, hset]
      by_cases hfg : f = g
      · subst hfg
        rw [if_pos rfl, if_pos List.mem_cons_self]
        split
        · cases effect f with
          | none => rfl
          | some v => rfl
        · rfl
      · simp only [hfg, if_false, List.mem_cons, false_or]

/-- The merge, field by field. -/
theorem lookup_mergePolicy (before : Policy) (body : Json) (f : JsString) :
    (mergePolicy before body).lookup f = (change body f).getD (before.lookup f) := by
  have hapart : ∀ f ∈ stringFields, f ∉ enumFields.map Prod.fst := by decide
  rw [mergePolicy, lookup_foldl (lookup_setString body), lookup_foldl (lookup_setEnum body), change]
  by_cases hstring : f ∈ stringFields
  · simp only [if_pos hstring, if_neg (hapart f hstring)]
  · simp only [if_neg hstring]
    split <;> rfl

end ZeroAuth.Console
