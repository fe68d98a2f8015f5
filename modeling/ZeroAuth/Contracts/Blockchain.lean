/-
  ZeroAuth.Contracts.Blockchain

  `registerIdentityOnChain` of src/services/blockchain.ts: three attempts to send one
  transaction to the registry.

  The RPC may reject a call, or accept it.  What it has accepted is mined at any later
  time or never, and `tx.wait()` gives the receipt of a mined transaction or throws.  The
  registry may be called by others meanwhile, but not for this hash.
-/

import ZeroAuth.Contracts.DidRegistry
import ZeroAuth.Lib.Machine

namespace ZeroAuth.Contracts

open ZeroAuth.Js ZeroAuth.Lib

def maxRetries : ℕ := 3

/-- Where the call stands: before or in its attempt number `attempt`, back with the receipt
    of a transaction, or thrown. -/
inductive Registering
  | sending (attempt : ℕ)
  | waiting (attempt tx : ℕ)
  | returned (tx : ℕ)
  | thrown
  deriving DecidableEq

/-- The `catch` of `withRetry`. -/
def Registering.retry (attempt : ℕ) : Registering :=
  if attempt = maxRetries then .thrown else .sending (attempt + 1)

/-- An accepted transaction. -/
inductive TxStatus
  | pending
  | mined (success : Bool)
  deriving DecidableEq

/-- The registry, the transactions that were accepted from this call, and the call. -/
structure Chain where
  registry : DidRegistry
  sent : List TxStatus
  call : Registering

inductive ChainEvent
  | reject
  | accept
  | mine (tx : ℕ)
  | receipt
  | lose
  | elsewhere (sender : Address) (call : RegistryCall)

/-- A call for this hash. -/
def RegistryCall.writes (h : Bytes32) : RegistryCall → Bool
  | .registerIdentity h' _ => h' = h
  | .revokeIdentity h' => h' = h
  | .transferOwnership _ => false

/-- What mining a transaction does. -/
def Chain.mine (wallet : Address) (biometricIDHash : Bytes32) (did : List UInt8) (tx : ℕ)
    (w : Chain) : Chain :=
  match w.registry.exec wallet (.registerIdentity biometricIDHash did) with
  | .ok registry => { w with registry, sent := w.sent.set tx (.mined true) }
  | .error _ => { w with sent := w.sent.set tx (.mined false) }

def Chain.step (wallet : Address) (biometricIDHash : Bytes32) (did : List UInt8) (w : Chain) :
    ChainEvent → Option Chain
  | .reject =>
      match w.call with
      | .sending attempt => some { w with call := .retry attempt }
      | _ => none
  | .accept =>
      match w.call with
      | .sending attempt =>
          some { w with sent := w.sent ++ [.pending], call := .waiting attempt w.sent.length }
      | _ => none
  | .mine tx => if w.sent[tx]? = some .pending then some (w.mine wallet biometricIDHash did tx) else none
  | .receipt =>
      match w.call with
      | .waiting attempt tx =>
          match w.sent[tx]? with
          | some (.mined true) => some { w with call := .returned tx }
          -- the receipt of a reverted transaction makes `wait` throw
          | some (.mined false) => some { w with call := .retry attempt }
          | _ => none
      | _ => none
  | .lose =>
      match w.call with
      | .waiting attempt _ => some { w with call := .retry attempt }
      | _ => none
  | .elsewhere sender call =>
      if call.writes biometricIDHash = true then none
      else some { w with registry := didRegistry.apply w.registry (sender, call) }

def registerIdentityOnChain (wallet : Address) (biometricIDHash : Bytes32) (did : List UInt8) :
    Machine Chain ChainEvent :=
  ⟨Chain.step wallet biometricIDHash did⟩

/-- A call of the function; without a contract it throws at once. -/
def startRegistering (initialized : Bool) (registry : DidRegistry) : Chain :=
  ⟨registry, [], if initialized then .sending 1 else .thrown⟩

/-- What the outcome ought to mean. -/
def TellsTheTruth (biometricIDHash : Bytes32) (did : List UInt8) (w : Chain) : Prop :=
  ((∃ tx, w.call = .returned tx) → w.registry.verifyIdentity biometricIDHash = .ok did) ∧
  (w.call = .thrown → w.registry.verifyIdentity biometricIDHash ≠ .ok did)

/-- Neither is the receipt of a successful transaction lost, nor is a transaction mined
    with success that the call has given up. -/
def ReceiptKept (wallet : Address) (biometricIDHash : Bytes32) (did : List UInt8) (w : Chain) :
    ChainEvent → Prop
  | .lose => ∀ attempt tx, w.call = .waiting attempt tx → w.sent[tx]? ≠ some (TxStatus.mined true)
  | .mine tx =>
      (∃ attempt, w.call = .waiting attempt tx) ∨
        ∀ registry, w.registry.exec wallet (.registerIdentity biometricIDHash did) ≠ .ok registry
  | _ => True

variable {wallet : Address} {h : Bytes32} {did : List UInt8} {w w' : Chain} {e : ChainEvent}

/-! ## The registry -/

/-- Calls elsewhere leave this hash alone. -/
theorem apply_elsewhere {sender : Address} {call : RegistryCall} (hcall : call.writes h = false)
    (s : DidRegistry) :
    (didRegistry.apply s (sender, call)).registered h = s.registered h ∧
      (didRegistry.apply s (sender, call)).identities h = s.identities h := by
  cases hs : didRegistry.exec sender call s with
  | error e =>
      rw [Contract.apply_error hs]
      exact ⟨rfl, rfl⟩
  | ok s' =>
      rw [Contract.apply_ok hs]
      cases call with
      | registerIdentity h' did' =>
          have hne : h ≠ h' := by
            rintro rfl
            simp [RegistryCall.writes] at hcall
          obtain rfl := (DidRegistry.exec_registerIdentity hs).eq
          exact ⟨Function.update_of_ne hne _ _, Function.update_of_ne hne _ _⟩
      | revokeIdentity h' =>
          have hne : h ≠ h' := by
            rintro rfl
            simp [RegistryCall.writes] at hcall
          obtain rfl := (DidRegistry.exec_revokeIdentity hs).2
          exact ⟨Function.update_of_ne hne _ _, Function.update_of_ne hne _ _⟩
      | transferOwnership newOwner =>
          obtain rfl := DidRegistry.exec_transferOwnership hs
          exact ⟨rfl, rfl⟩

/-- A hash that is registered cannot be registered again. -/
theorem exec_registered {s s' : DidRegistry} (hs : s.registered h = true) :
    s.exec wallet (.registerIdentity h did) ≠ .ok s' := by
  intro hok
  have hfresh := (DidRegistry.exec_registerIdentity hok).fresh
  rw [hs] at hfresh
  cases hfresh

/-! ## What a step can do -/

/-- The steps, each with what it leaves of the transactions. -/
inductive Steps (wallet : Address) (h : Bytes32) (did : List UInt8) (w : Chain) :
    ChainEvent → Chain → Prop
  | reject {attempt : ℕ} (hw : w.call = .sending attempt) :
      Steps wallet h did w .reject { w with call := .retry attempt }
  | accept {attempt : ℕ} (hw : w.call = .sending attempt) :
      Steps wallet h did w .accept
        { w with sent := w.sent ++ [.pending], call := .waiting attempt w.sent.length }
  | mined {tx : ℕ} {registry : DidRegistry} (hpending : w.sent[tx]? = some TxStatus.pending)
      (hexec : w.registry.exec wallet (.registerIdentity h did) = .ok registry) :
      Steps wallet h did w (.mine tx) { w with registry, sent := w.sent.set tx (.mined true) }
  | reverted {tx : ℕ} (hpending : w.sent[tx]? = some TxStatus.pending)
      (hexec : ∀ registry, w.registry.exec wallet (.registerIdentity h did) ≠ .ok registry) :
      Steps wallet h did w (.mine tx) { w with sent := w.sent.set tx (.mined false) }
  | receipt {attempt tx : ℕ} (hw : w.call = .waiting attempt tx)
      (hmined : w.sent[tx]? = some (TxStatus.mined true)) :
      Steps wallet h did w .receipt { w with call := .returned tx }
  | failed {attempt tx : ℕ} (hw : w.call = .waiting attempt tx)
      (hmined : w.sent[tx]? = some (TxStatus.mined false)) :
      Steps wallet h did w .receipt { w with call := .retry attempt }
  | lose {attempt tx : ℕ} (hw : w.call = .waiting attempt tx) :
      Steps wallet h did w .lose { w with call := .retry attempt }
  | elsewhere {sender : Address} {call : RegistryCall} (hcall : call.writes h = false) :
      Steps wallet h did w (.elsewhere sender call)
        { w with registry := didRegistry.apply w.registry (sender, call) }

theorem steps_of_step (hs : w.step wallet h did e = some w') : Steps wallet h did w e w' := by
  cases e with
  | reject =>
      dsimp only [Chain.step] at hs
      split at hs
      · next hw =>
          obtain rfl := Option.some.inj hs
          exact .reject hw
      · cases hs
  | accept =>
      dsimp only [Chain.step] at hs
      split at hs
      · next hw =>
          obtain rfl := Option.some.inj hs
          exact .accept hw
      · cases hs
  | mine tx =>
      dsimp only [Chain.step] at hs
      split at hs
      · next hpending =>
          obtain rfl := Option.some.inj hs
          unfold Chain.mine
          split
          · next hexec => exact .mined hpending hexec
          · next hexec => exact .reverted hpending (by simp [hexec])
      · cases hs
  | receipt =>
      dsimp only [Chain.step] at hs
      split at hs
      · next hw =>
          split at hs
          · next hmined =>
              obtain rfl := Option.some.inj hs
              exact .receipt hw hmined
          · next hmined =>
              obtain rfl := Option.some.inj hs
              exact .failed hw hmined
          · cases hs
      · cases hs
  | lose =>
      dsimp only [Chain.step] at hs
      split at hs
      · next hw =>
          obtain rfl := Option.some.inj hs
          exact .lose hw
      · cases hs
  | elsewhere sender call =>
      dsimp only [Chain.step] at hs
      split at hs
      · cases hs
      · next hcall =>
          obtain rfl := Option.some.inj hs
          exact .elsewhere (by simpa using hcall)

/-! ## Kept receipts -/

/-- While no receipt is lost: the hash is registered exactly when a transaction of this
    call was mined with success, and then the call waits for it or is back with it. -/
structure Kept (h : Bytes32) (did : List UInt8) (w : Chain) : Prop where
  registered : w.registry.registered h = true →
    w.registry.identities h = did ∧ ∃ tx : ℕ, w.sent[tx]? = some (TxStatus.mined true)
  mined : ∀ tx : ℕ, w.sent[tx]? = some (TxStatus.mined true) → w.registry.registered h = true ∧
    ((∃ attempt, w.call = .waiting attempt tx) ∨ w.call = .returned tx)
  returned : ∀ tx : ℕ, w.call = .returned tx → w.sent[tx]? = some (TxStatus.mined true)

theorem retry_cases (attempt : ℕ) :
    Registering.retry attempt = .thrown ∨ Registering.retry attempt = .sending (attempt + 1) := by
  unfold Registering.retry
  split
  · exact .inl rfl
  · exact .inr rfl

theorem retry_ne (attempt : ℕ) :
    (∀ a tx, Registering.retry attempt ≠ .waiting a tx) ∧
      ∀ tx, Registering.retry attempt ≠ .returned tx := by
  rcases retry_cases attempt with heq | heq
  · rw [heq]
    exact ⟨fun _ _ => Registering.noConfusion, fun _ => Registering.noConfusion⟩
  · rw [heq]
    exact ⟨fun _ _ => Registering.noConfusion, fun _ => Registering.noConfusion⟩

/-- A call that gives nothing up, because nothing was mined with success, stays kept. -/
theorem Kept.retry (hk : Kept h did w) (hnone : ∀ tx : ℕ, w.sent[tx]? ≠ some (TxStatus.mined true))
    (attempt : ℕ) : Kept h did { w with call := .retry attempt } where
  registered hreg := hk.registered hreg
  mined tx htx := absurd htx (hnone tx)
  returned tx htx := absurd htx ((retry_ne attempt).2 tx)

/-- Only the transaction that the call waits for can have been mined with success. -/
theorem Kept.none_mined (hk : Kept h did w) (hreturned : ∀ tx, w.call ≠ .returned tx)
    (hwaiting : ∀ (attempt tx : ℕ), w.call = .waiting attempt tx → w.sent[tx]? ≠ some (TxStatus.mined true))
    (tx : ℕ) : w.sent[tx]? ≠ some (TxStatus.mined true) := by
  intro htx
  rcases (hk.mined tx htx).2 with ⟨attempt, hcall⟩ | hcall
  · exact hwaiting attempt tx hcall htx
  · exact hreturned tx hcall

theorem Kept.step (hk : Kept h did w) (hgood : ReceiptKept wallet h did w e)
    (hs : w.step wallet h did e = some w') : Kept h did w' := by
  cases steps_of_step hs with
  | @reject attempt hw =>
      exact hk.retry (hk.none_mined (by simp [hw]) (by simp [hw])) attempt
  | @accept attempt hw =>
      have hnone := hk.none_mined (by simp [hw]) (by simp [hw])
      have hnone' : ∀ tx : ℕ, (w.sent ++ [TxStatus.pending])[tx]? ≠ some (TxStatus.mined true) := by
        intro tx htx
        rcases List.mem_append.mp (List.mem_of_getElem? htx) with hmem | hmem
        · obtain ⟨i, hi⟩ := List.mem_iff_getElem?.mp hmem
          exact hnone i hi
        · simp at hmem
      refine ⟨fun hreg => ?_, fun tx htx => absurd htx (hnone' tx), fun tx htx => by cases htx⟩
      obtain ⟨-, tx, htx⟩ := hk.registered hreg
      exact absurd htx (hnone tx)
  | @mined tx registry hpending hexec =>
      have hregisters := DidRegistry.exec_registerIdentity hexec
      obtain ⟨attempt, hwaiting⟩ : ∃ attempt, w.call = .waiting attempt tx :=
        hgood.resolve_right fun hne => hne registry hexec
      have hlt : tx < w.sent.length := (List.getElem?_eq_some_iff.mp hpending).1
      have hreg : registry.registered h = true := by
        rw [hregisters.eq]
        exact Function.update_self ..
      refine ⟨fun _ => ⟨?_, tx, ?_⟩, fun tx' htx' => ⟨hreg, ?_⟩, fun tx' htx' => ?_⟩
      · rw [hregisters.eq]
        exact Function.update_self ..
      · exact List.getElem?_set_self hlt
      · by_cases heq : tx = tx'
        · exact .inl ⟨attempt, heq ▸ hwaiting⟩
        · -- the hash was not registered yet, so no other one can be mined
          rw [List.getElem?_set_ne heq] at htx'
          have hold := (hk.mined tx' htx').1
          rw [hregisters.fresh] at hold
          cases hold
      · dsimp only at htx'
        rw [hwaiting] at htx'
        cases htx'
  | @reverted tx hpending hexec =>
      have hother {tx' : ℕ} (htx' : (w.sent.set tx (.mined false))[tx']? = some (TxStatus.mined true)) :
          w.sent[tx']? = some (TxStatus.mined true) := by
        by_cases heq : tx = tx'
        · subst heq
          rw [List.getElem?_set_self (List.getElem?_eq_some_iff.mp hpending).1] at htx'
          cases htx'
        · rwa [List.getElem?_set_ne heq] at htx'
      have hback {tx' : ℕ} (htx' : w.sent[tx']? = some (TxStatus.mined true)) :
          (w.sent.set tx (.mined false))[tx']? = some (TxStatus.mined true) := by
        have hne : tx ≠ tx' := by
          rintro rfl
          rw [hpending] at htx'
          cases htx'
        rwa [List.getElem?_set_ne hne]
      refine ⟨fun hreg => ?_, fun tx' htx' => hk.mined tx' (hother htx'),
        fun tx' htx' => hback (hk.returned tx' htx')⟩
      obtain ⟨hdid, tx', htx'⟩ := hk.registered hreg
      exact ⟨hdid, tx', hback htx'⟩
  | @receipt attempt tx hw hmined =>
      refine ⟨hk.registered, fun tx' htx' => ⟨(hk.mined tx' htx').1, .inr ?_⟩, fun tx' htx' => ?_⟩
      · rcases (hk.mined tx' htx').2 with ⟨attempt', hcall⟩ | hcall
        · rw [hw] at hcall
          cases hcall
          rfl
        · rw [hw] at hcall
          cases hcall
      · cases htx'
        exact hmined
  | @failed attempt tx hw hmined =>
      refine hk.retry (hk.none_mined (by simp [hw]) fun attempt' tx' hcall => ?_) attempt
      rw [hw] at hcall
      cases hcall
      rw [hmined]
      simp
  | @lose attempt tx hw =>
      exact hk.retry (hk.none_mined (by simp [hw]) hgood) attempt
  | @elsewhere sender call hcall =>
      obtain ⟨hreg, hdid⟩ := apply_elsewhere hcall w.registry
      refine ⟨fun hr => ?_, fun tx htx => ?_, hk.returned⟩
      · dsimp only at hr ⊢
        rw [hdid]
        rw [hreg] at hr
        exact hk.registered hr
      · dsimp only
        rw [hreg]
        exact hk.mined tx htx

theorem Kept.tellsTheTruth (hk : Kept h did w) : TellsTheTruth h did w := by
  refine ⟨fun ⟨tx, htx⟩ => ?_, fun hthrown hread => ?_⟩
  · obtain ⟨hreg, -⟩ := hk.mined tx (hk.returned tx htx)
    rw [DidRegistry.verifyIdentity, if_pos hreg, (hk.registered hreg).1]
  · have hreg : w.registry.registered h = true := by
      by_contra hne
      rw [DidRegistry.verifyIdentity, if_neg hne] at hread
      cases hread
    obtain ⟨-, tx, htx⟩ := hk.registered hreg
    rcases (hk.mined tx htx).2 with ⟨attempt, hcall⟩ | hcall
    · rw [hthrown] at hcall
      cases hcall
    · rw [hthrown] at hcall
      cases hcall

/-! ## A lost receipt -/

/-- The identity is on chain, and the call no longer waits for the transaction that has
    put it there. -/
structure Hidden (h : Bytes32) (did : List UInt8) (w : Chain) : Prop where
  registered : w.registry.registered h = true
  identity : w.registry.identities h = did
  mined : ∀ (attempt tx : ℕ), w.call = .waiting attempt tx → w.sent[tx]? ≠ some (TxStatus.mined true)
  returned : ∀ tx, w.call ≠ .returned tx

theorem Hidden.retry (hh : Hidden h did w) (attempt : ℕ) :
    Hidden h did { w with call := .retry attempt } where
  registered := hh.registered
  identity := hh.identity
  mined a tx htx := absurd htx ((retry_ne attempt).1 a tx)
  returned tx := (retry_ne attempt).2 tx

/-- Every further attempt reverts. -/
theorem Hidden.step (hh : Hidden h did w) (hs : w.step wallet h did e = some w') :
    Hidden h did w' := by
  cases steps_of_step hs with
  | reject hw => exact hh.retry _
  | @accept attempt hw =>
      refine ⟨hh.registered, hh.identity, fun a tx htx => ?_, fun tx => Registering.noConfusion⟩
      cases htx
      simp
  | mined hpending hexec => exact absurd hexec (exec_registered hh.registered)
  | @reverted tx hpending hexec =>
      refine ⟨hh.registered, hh.identity, fun a tx' htx' hmined => ?_, hh.returned⟩
      dsimp only at hmined
      by_cases heq : tx = tx'
      · subst heq
        rw [List.getElem?_set_self (List.getElem?_eq_some_iff.mp hpending).1] at hmined
        cases hmined
      · rw [List.getElem?_set_ne heq] at hmined
        exact hh.mined a tx' htx' hmined
  | @receipt attempt tx hw hmined => exact absurd hmined (hh.mined attempt tx hw)
  | failed hw hmined => exact hh.retry _
  | lose hw => exact hh.retry _
  | @elsewhere sender call hcall =>
      obtain ⟨hreg, hdid⟩ := apply_elsewhere hcall w.registry
      exact ⟨hreg.trans hh.registered, hdid.trans hh.identity, hh.mined, hh.returned⟩

/-- The step that loses a receipt, or mines what was given up. -/
theorem Kept.hidden_of_lost (hk : Kept h did w) (hs : w.step wallet h did e = some w')
    (hbad : ¬ ReceiptKept wallet h did w e) : Hidden h did w' := by
  cases steps_of_step hs with
  | @lose attempt tx hw =>
      -- only the receipt of a transaction that was mined counts as lost
      have hmined : w.sent[tx]? = some (TxStatus.mined true) := by
        by_contra hne
        apply hbad
        intro attempt' tx' hcall
        rw [hw] at hcall
        cases hcall
        exact hne
      obtain ⟨hreg, -⟩ := hk.mined tx hmined
      exact ⟨hreg, (hk.registered hreg).1, fun a tx' htx' => absurd htx' ((retry_ne attempt).1 a tx'),
        (retry_ne attempt).2⟩
  | @mined tx registry hpending hexec =>
      have hregisters := DidRegistry.exec_registerIdentity hexec
      have hnot : ∀ attempt, w.call ≠ .waiting attempt tx :=
        fun attempt hcall => hbad (.inl ⟨attempt, hcall⟩)
      -- nothing was mined before, for the DID was free
      have hnone : ∀ tx' : ℕ, w.sent[tx']? ≠ some (TxStatus.mined true) := by
        intro tx' htx'
        have hold := (hk.mined tx' htx').1
        rw [hregisters.fresh] at hold
        cases hold
      refine ⟨?_, ?_, fun a tx' htx' hmined => ?_, fun tx' htx' => hnone tx' (hk.returned tx' htx')⟩
      · rw [hregisters.eq]
        exact Function.update_self ..
      · rw [hregisters.eq]
        exact Function.update_self ..
      · dsimp only at hmined
        have hne : tx ≠ tx' := by
          rintro rfl
          exact hnot a htx'
        rw [List.getElem?_set_ne hne] at hmined
        exact hnone tx' hmined
  | reverted hpending hexec => exact absurd (.inr hexec) hbad
  | reject hw => exact absurd trivial hbad
  | accept hw => exact absurd trivial hbad
  | receipt hw hmined => exact absurd trivial hbad
  | failed hw hmined => exact absurd trivial hbad
  | elsewhere hcall => exact absurd trivial hbad

/-! ## Runs -/

theorem kept_start (initialized : Bool) {registry : DidRegistry} (hfresh : registry.registered h = false) :
    Kept h did (startRegistering initialized registry) where
  registered hreg := by
    dsimp only [startRegistering] at hreg
    rw [hfresh] at hreg
    cases hreg
  mined tx htx := by simp [startRegistering] at htx
  returned tx htx := by
    unfold startRegistering at htx
    cases initialized with
    | true => cases htx
    | false => cases htx

/-- For a hash that was not registered before: the outcome tells the truth along every
    schedule in which no receipt of a successful transaction is lost and no transaction
    that was given up is mined with success.  As soon as one is, the call, whenever it
    ends, does not. -/
theorem register_tells_truth (wallet : Address) (h : Bytes32) (did : List UInt8)
    (initialized : Bool) (registry : DidRegistry) (hfresh : registry.registered h = false) :
    (∀ w, (registerIdentityOnChain wallet h did).Later (ReceiptKept wallet h did)
        (startRegistering initialized registry) w → TellsTheTruth h did w) ∧
    ∀ w e w', (registerIdentityOnChain wallet h did).Later (ReceiptKept wallet h did)
        (startRegistering initialized registry) w →
      (registerIdentityOnChain wallet h did).step w e = some w' → ¬ ReceiptKept wallet h did w e →
      ∀ w'', (registerIdentityOnChain wallet h did).Later (fun _ _ => True) w' w'' →
        ((∃ tx, w''.call = .returned tx) ∨ w''.call = .thrown) → ¬ TellsTheTruth h did w'' := by
  have hkept {w : Chain} (hw : (registerIdentityOnChain wallet h did).Later
      (ReceiptKept wallet h did) (startRegistering initialized registry) w) : Kept h did w :=
    hw.invariant (fun _ _ _ hk hgood hs => hk.step hgood hs) (kept_start initialized hfresh)
  refine ⟨fun w hw => (hkept hw).tellsTheTruth, fun w e w' hw hs hbad w'' hlater hend htruth => ?_⟩
  have hhidden : Hidden h did w'' :=
    hlater.invariant (fun _ _ _ hh _ hs => hh.step hs) ((hkept hw).hidden_of_lost hs hbad)
  rcases hend with ⟨tx, htx⟩ | hthrown
  · exact hhidden.returned tx htx
  · apply htruth.2 hthrown
    rw [DidRegistry.verifyIdentity, if_pos hhidden.registered, hhidden.identity]

/-- A registry of the wallet 1. -/
def sampleRegistry : DidRegistry := .deployed 1

/-- The second attempt gets its receipt. -/
theorem register_tells_truth_at_last : ∃ w, w.call = .returned 0 ∧ TellsTheTruth 5 [100] w := by
  have hrun : ((registerIdentityOnChain 1 5 [100]).runChecked
      (fun w e => match e with
        | .lose => false
        | .mine tx => w.call == .waiting 2 tx
        | _ => true)
      (startRegistering true sampleRegistry) [.reject, .accept, .mine 0, .receipt]).map Chain.call =
        some (.returned 0) := by decide +kernel
  obtain ⟨w, hw, hcall⟩ := Option.map_eq_some_iff.mp hrun
  refine ⟨w, hcall, (register_tells_truth 1 5 [100] true sampleRegistry rfl).1 w
    (Machine.later_of_runChecked (fun w e he => ?_) hw)⟩
  cases e with
  | lose => cases he
  | mine tx => exact .inl ⟨2, by simpa using he⟩
  | _ => trivial

/-- The receipt of the first attempt is lost, and the other two revert. -/
theorem lost_receipt : ¬ ∀ (wallet : Address) (h : Bytes32) (did : List UInt8) (initialized : Bool)
    (registry : DidRegistry), registry.registered h = false →
      ∀ w, (registerIdentityOnChain wallet h did).Later (fun _ _ => True)
        (startRegistering initialized registry) w → TellsTheTruth h did w := by
  intro hall
  have hrun : ((registerIdentityOnChain 1 5 [100]).run (startRegistering true sampleRegistry)
      [.accept, .mine 0, .lose, .reject, .reject]).map (fun w => (w.call, w.registry.verifyIdentity 5)) =
        some (.thrown, .ok [100]) := by decide +kernel
  obtain ⟨w, hw, heq⟩ := Option.map_eq_some_iff.mp hrun
  obtain ⟨hcall, hread⟩ := Prod.mk.inj heq
  exact (hall 1 5 [100] true sampleRegistry rfl w (Machine.later_of_run hw)).2 hcall hread

end ZeroAuth.Contracts
