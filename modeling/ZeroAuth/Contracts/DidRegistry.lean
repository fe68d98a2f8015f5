/-
  ZeroAuth.Contracts.DidRegistry

  contracts/DIDRegistry.sol: the DIDs of registered biometric hashes and their number.
  The events that the calls emit are left out.
-/

import ZeroAuth.Js.Text
import ZeroAuth.Lib.Contract
import Mathlib.Algebra.Group.Nat.Defs
import Mathlib.Data.Finset.Card
import Mathlib.Data.Finset.Range

namespace ZeroAuth.Contracts

open ZeroAuth.Js ZeroAuth.Lib

abbrev Address := BitVec 160

abbrev Bytes32 := BitVec 256

/-- What a call reverts with: the text of a `require`, or a `Panic` code. -/
inductive Revert
  | require (reason : JsString)
  | panic (code : ℕ)
  deriving DecidableEq

/-- `Panic(0x11)`: arithmetic out of range. -/
def Revert.arithmetic : Revert := .panic 0x11

/-- The storage.  A string is its bytes. -/
structure DidRegistry where
  owner : Address
  identities : Bytes32 → List UInt8
  registered : Bytes32 → Bool
  identityCount : ℕ

inductive RegistryCall
  | registerIdentity (biometricIDHash : Bytes32) (did : List UInt8)
  | revokeIdentity (biometricIDHash : Bytes32)
  | transferOwnership (newOwner : Address)
  deriving DecidableEq

namespace DidRegistry

/-- The constructor. -/
def deployed (sender : Address) : DidRegistry := ⟨sender, fun _ => [], fun _ => false, 0⟩

def onlyOwner (sender : Address) (s : DidRegistry) (body : Except Revert DidRegistry) :
    Except Revert DidRegistry :=
  if sender = s.owner then body else .error (.require (js "DIDRegistry: caller is not owner"))

def registerIdentity (biometricIDHash : Bytes32) (did : List UInt8) (s : DidRegistry) :
    Except Revert DidRegistry :=
  if biometricIDHash = 0 then .error (.require (js "Invalid biometric hash"))
  else if did.length = 0 then .error (.require (js "Invalid DID"))
  else if s.registered biometricIDHash = true then .error (.require (js "Already registered"))
  else if s.identityCount + 1 < 2 ^ 256 then
    .ok { s with
      identities := Function.update s.identities biometricIDHash did
      registered := Function.update s.registered biometricIDHash true
      identityCount := s.identityCount + 1 }
  else .error .arithmetic

def revokeIdentity (biometricIDHash : Bytes32) (s : DidRegistry) : Except Revert DidRegistry :=
  if s.registered biometricIDHash = true then
    if 0 < s.identityCount then
      .ok { s with
        identities := Function.update s.identities biometricIDHash []
        registered := Function.update s.registered biometricIDHash false
        identityCount := s.identityCount - 1 }
    else .error .arithmetic
  else .error (.require (js "Not registered"))

def transferOwnership (newOwner : Address) (s : DidRegistry) : Except Revert DidRegistry :=
  if newOwner = 0 then .error (.require (js "Invalid address")) else .ok { s with owner := newOwner }

/-- Every call that may change the storage is `onlyOwner`. -/
def exec (sender : Address) (call : RegistryCall) (s : DidRegistry) : Except Revert DidRegistry :=
  onlyOwner sender s <|
    match call with
    | .registerIdentity biometricIDHash did => s.registerIdentity biometricIDHash did
    | .revokeIdentity biometricIDHash => s.revokeIdentity biometricIDHash
    | .transferOwnership newOwner => s.transferOwnership newOwner

/-! ### Views -/

def verifyIdentity (biometricIDHash : Bytes32) (s : DidRegistry) : Except Revert (List UInt8) :=
  if s.registered biometricIDHash = true then .ok (s.identities biometricIDHash)
  else .error (.require (js "Not registered"))

def isRegistered (biometricIDHash : Bytes32) (s : DidRegistry) : Bool := s.registered biometricIDHash

end DidRegistry

def didRegistry : Contract Address RegistryCall Revert DidRegistry := ⟨DidRegistry.exec⟩

namespace DidRegistry

variable {sender : Address} {call : RegistryCall} {s s' : DidRegistry} {h : Bytes32}
  {did : List UInt8}

/-! ## What a call can do -/

theorem owner_of_exec (hs : s.exec sender call = .ok s') : sender = s.owner := by
  unfold exec onlyOwner at hs
  split at hs
  · assumption
  · cases hs

/-- A registration that succeeds. -/
structure Registers (h : Bytes32) (did : List UInt8) (s s' : DidRegistry) : Prop where
  hash : h ≠ 0
  did_ne : did ≠ []
  fresh : s.registered h = false
  eq : s' = { s with
    identities := Function.update s.identities h did
    registered := Function.update s.registered h true
    identityCount := s.identityCount + 1 }

theorem exec_registerIdentity (hs : s.exec sender (.registerIdentity h did) = .ok s') :
    Registers h did s s' := by
  have howner := owner_of_exec hs
  rw [exec, onlyOwner, if_pos howner] at hs
  dsimp only [registerIdentity] at hs
  split at hs
  · cases hs
  split at hs
  · cases hs
  split at hs
  · cases hs
  split at hs
  · next hhash hdid hfresh _ =>
      exact ⟨hhash, fun hnil => hdid (by rw [hnil]; rfl), by simpa using hfresh,
        (Except.ok.inj hs).symm⟩
  · cases hs

theorem exec_revokeIdentity (hs : s.exec sender (.revokeIdentity h) = .ok s') :
    s.registered h = true ∧ s' = { s with
      identities := Function.update s.identities h []
      registered := Function.update s.registered h false
      identityCount := s.identityCount - 1 } := by
  have howner := owner_of_exec hs
  rw [exec, onlyOwner, if_pos howner] at hs
  dsimp only [revokeIdentity] at hs
  split at hs
  · next hreg =>
      split at hs
      · exact ⟨hreg, (Except.ok.inj hs).symm⟩
      · cases hs
  · cases hs

theorem exec_transferOwnership {newOwner : Address}
    (hs : s.exec sender (.transferOwnership newOwner) = .ok s') :
    s' = { s with owner := newOwner } := by
  have howner := owner_of_exec hs
  rw [exec, onlyOwner, if_pos howner] at hs
  dsimp only [transferOwnership] at hs
  split at hs
  · cases hs
  · exact (Except.ok.inj hs).symm

/-! ## The invariant -/

/-- The DID of the last `registerIdentity` for a hash among some calls. -/
def lastDid (h : Bytes32) (calls : List (Address × RegistryCall)) : Option (List UInt8) :=
  (calls.filterMap fun
    | (_, .registerIdentity h' did) => if h' = h then some did else none
    | _ => none).getLast?

/-- After the calls `tr`, which have all succeeded: `hashes` are the registered ones, and
    each has the DID it was last registered with. -/
structure Consistent (tr : List (Address × RegistryCall)) (s : DidRegistry)
    (hashes : Finset Bytes32) : Prop where
  mem : ∀ h, h ∈ hashes ↔ s.registered h = true
  count : hashes.card = s.identityCount
  zero : s.registered 0 = false
  did : ∀ h, s.registered h = true → s.identities h ≠ [] ∧ lastDid h tr = some (s.identities h)

/-- The hash 0 is spared, so that the counter never reaches `2 ^ 256`. -/
theorem card_add_one_le {hashes : Finset Bytes32} (hzero : 0 ∉ hashes) :
    hashes.card + 1 ≤ 2 ^ 256 := by
  have hinj : Function.Injective (fun h : Bytes32 => h.toNat) := fun _ _ h => BitVec.eq_of_toNat_eq h
  have hsub : (insert 0 hashes).image (fun h : Bytes32 => h.toNat) ⊆ Finset.range (2 ^ 256) := by
    intro n hn
    obtain ⟨h, -, rfl⟩ := Finset.mem_image.mp hn
    exact Finset.mem_range.mpr h.isLt
  have hcard := Finset.card_le_card hsub
  rw [Finset.card_image_of_injective _ hinj, Finset.card_insert_of_notMem hzero,
    Finset.card_range] at hcard
  exact hcard

theorem lastDid_append (h : Bytes32) (tr : List (Address × RegistryCall)) (x : Address × RegistryCall) :
    lastDid h (tr ++ [x]) =
      match x.2 with
      | .registerIdentity h' did => if h' = h then some did else lastDid h tr
      | _ => lastDid h tr := by
  obtain ⟨sender, call⟩ := x
  rw [lastDid, List.filterMap_append, List.getLast?_append]
  cases call with
  | registerIdentity h' did =>
      dsimp only
      by_cases heq : h' = h
      · rw [if_pos heq]
        simp [heq]
      · rw [if_neg heq]
        simp [heq, lastDid]
  | revokeIdentity h' => simp [lastDid]
  | transferOwnership newOwner => simp [lastDid]

theorem consistent_deployed (sender : Address) : Consistent [] (deployed sender) ∅ where
  mem h := by simp [deployed]
  count := rfl
  zero := rfl
  did h hreg := by cases hreg

/-- One successful call. -/
theorem Consistent.exec {tr : List (Address × RegistryCall)} {hashes : Finset Bytes32}
    (hc : Consistent tr s hashes) (hs : s.exec sender call = .ok s') :
    ∃ hashes', Consistent (tr ++ [(sender, call)]) s' hashes' := by
  cases call with
  | registerIdentity h did =>
      obtain ⟨hhash, hne, hfresh, rfl⟩ := exec_registerIdentity hs
      -- a registration adds a new hash,
      have hmem : h ∉ hashes := by
        rw [hc.mem, hfresh]
        exact Bool.false_ne_true
      refine ⟨insert h hashes, ⟨fun h' => ?_, ?_, ?_, fun h' hreg => ?_⟩⟩
      · rw [Finset.mem_insert, hc.mem]
        by_cases heq : h' = h
        · subst heq
          simp
        · simp [heq]
      · rw [Finset.card_insert_of_notMem hmem, hc.count]
      · exact (Function.update_of_ne (Ne.symm hhash) _ _).trans hc.zero
      · rw [lastDid_append]
        by_cases heq : h' = h
        · subst heq
          simpa using hne
        · have hreg : s.registered h' = true := by simpa [heq] using hreg
          obtain ⟨hdid, hlast⟩ := hc.did h' hreg
          dsimp only
          rw [if_neg (Ne.symm heq), Function.update_of_ne heq]
          exact ⟨hdid, hlast⟩
  | revokeIdentity h =>
      obtain ⟨hreg, rfl⟩ := exec_revokeIdentity hs
      -- a revocation takes one away
      have hmem : h ∈ hashes := (hc.mem h).mpr hreg
      refine ⟨hashes.erase h, ⟨fun h' => ?_, ?_, ?_, fun h' hreg' => ?_⟩⟩
      · rw [Finset.mem_erase, hc.mem]
        by_cases heq : h' = h
        · subst heq
          simp
        · simp [heq]
      · rw [Finset.card_erase_of_mem hmem, hc.count]
      · have hne : (0 : Bytes32) ≠ h := by
          rintro rfl
          rw [hc.zero] at hreg
          cases hreg
        exact (Function.update_of_ne hne _ _).trans hc.zero
      · rw [lastDid_append]
        have heq : h' ≠ h := by
          rintro rfl
          simp at hreg'
        have hreg' : s.registered h' = true := by simpa [heq] using hreg'
        dsimp only
        rw [Function.update_of_ne heq]
        exact hc.did h' hreg'
  | transferOwnership newOwner =>
      obtain rfl := exec_transferOwnership hs
      refine ⟨hashes, ⟨hc.mem, hc.count, hc.zero, fun h' hreg => ?_⟩⟩
      rw [lastDid_append]
      exact hc.did h' hreg

/-- Every sequence of calls leaves the registry consistent with those that succeeded. -/
theorem consistent_after (deployer : Address) (calls : List (Address × RegistryCall)) :
    ∃ hashes, Consistent (didRegistry.succeeded (deployed deployer) calls)
      (didRegistry.after (deployed deployer) calls) hashes := by
  have h0 : ∃ hashes, Consistent [] (deployed deployer) hashes := ⟨∅, consistent_deployed deployer⟩
  refine Contract.after_trace (K := didRegistry) (R := fun tr s => ∃ hashes, Consistent tr s hashes)
    ?_ [] h0 calls
  rintro tr s ⟨sender, call⟩ s' ⟨hashes, hc⟩ hs
  exact hc.exec hs

/-- The checked arithmetic never fails. -/
theorem Consistent.no_panic {tr : List (Address × RegistryCall)} {hashes : Finset Bytes32}
    (hc : Consistent tr s hashes) (sender : Address) (call : RegistryCall) (code : ℕ) :
    s.exec sender call ≠ .error (.panic code) := by
  have hzero : 0 ∉ hashes := by
    rw [hc.mem, hc.zero]
    exact Bool.false_ne_true
  intro hs
  unfold DidRegistry.exec onlyOwner at hs
  split at hs
  · cases call with
    | registerIdentity h did =>
        dsimp only [registerIdentity] at hs
        split at hs
        · cases hs
        split at hs
        · cases hs
        split at hs
        · cases hs
        · next hhash _ hfresh =>
            -- one more hash and the spared 0 still fit
            have hmem : h ∉ hashes := by rwa [hc.mem]
            have hzero' : 0 ∉ insert h hashes := by
              rw [Finset.mem_insert]
              exact not_or.mpr ⟨fun heq => hhash heq.symm, hzero⟩
            have hcard := card_add_one_le hzero'
            rw [Finset.card_insert_of_notMem hmem, hc.count] at hcard
            have hlt : s.identityCount + 1 < 2 ^ 256 := hcard
            rw [if_pos hlt] at hs
            cases hs
    | revokeIdentity h =>
        dsimp only [revokeIdentity] at hs
        split at hs
        · next hreg =>
            have hpos : 0 < s.identityCount := by
              rw [← hc.count]
              exact Finset.card_pos.mpr ⟨h, (hc.mem h).mpr hreg⟩
            rw [if_pos hpos] at hs
            cases hs
        · cases hs
    | transferOwnership newOwner =>
        dsimp only [transferOwnership] at hs
        split at hs
        · cases hs
        · cases hs
  · cases hs

/-- After every sequence of calls by anyone: the counter counts the registered hashes and
    never leaves its range, a registered hash has the DID it was last registered with, and
    only a call of the owner changes anything. -/
theorem registry_invariant (deployer : Address) (calls : List (Address × RegistryCall)) :
    let s := didRegistry.after (deployed deployer) calls
    (∃ hashes : Finset Bytes32, (∀ h, h ∈ hashes ↔ s.isRegistered h = true) ∧
      hashes.card = s.identityCount) ∧
    (∀ sender call code, s.exec sender call ≠ .error (.panic code)) ∧
    (∀ h, s.isRegistered h = true → ∃ did ≠ [], s.verifyIdentity h = .ok did ∧
      lastDid h (didRegistry.succeeded (deployed deployer) calls) = some did) ∧
    (∀ h, (∃ e, s.verifyIdentity h = .error e) ↔ s.isRegistered h = false) ∧
    s.isRegistered 0 = false ∧
    ∀ sender call, didRegistry.apply s (sender, call) ≠ s → sender = s.owner := by
  intro s
  obtain ⟨hashes, hc⟩ := consistent_after deployer calls
  refine ⟨⟨hashes, hc.mem, hc.count⟩, hc.no_panic, fun h hreg => ?_, fun h => ?_, hc.zero,
    fun sender call hne => ?_⟩
  · obtain ⟨hdid, hlast⟩ := hc.did h hreg
    exact ⟨_, hdid, if_pos hreg, hlast⟩
  · unfold verifyIdentity isRegistered
    cases hreg : s.registered h with
    | true => simp
    | false => simp
  · by_contra howner
    apply hne
    have herror : s.exec sender call =
        .error (.require (js "DIDRegistry: caller is not owner")) := by
      unfold DidRegistry.exec onlyOwner
      rw [if_neg howner]
    exact Contract.apply_error (K := didRegistry) herror

end DidRegistry

end ZeroAuth.Contracts
