/-
  ZeroAuth.Contracts.AuditAnchor

  contracts/AuditAnchor.sol: one anchor for a tenant and a day, written once.

  `Ownable` is the base contract of OpenZeppelin, by what its documentation says:
  it has the owner's slot to itself.  The events are left out.
-/

import ZeroAuth.Contracts.DidRegistry
import ZeroAuth.Lib.Words

namespace ZeroAuth.Contracts

open ZeroAuth.Js ZeroAuth.Lib

/-- The base contract: the modifier, and what the two inherited calls make of the owner
    when they do not revert. -/
structure Ownable (E : Type) where
  checkOwner : Address → Address → Except E Unit
  transferOwnership : Address → Address → Address → Except E Address
  renounceOwnership : Address → Address → Except E Address
  /-- `onlyOwner` lets the owner pass and nobody else. -/
  only : ∀ sender owner, checkOwner sender owner = .ok () ↔ sender = owner

structure AnchorRecord where
  tenantIdHash : Bytes32
  dayUtc : BitVec 64
  terminalHash : Bytes32
  rowCountAtAnchor : BitVec 64
  deriving DecidableEq

/-- The zero value of an unset slot. -/
def AnchorRecord.unset : AnchorRecord := ⟨0, 0, 0, 0⟩

structure AuditAnchor where
  owner : Address
  anchored : Bytes32 → Bool
  records : Bytes32 → AnchorRecord

inductive AnchorCall
  | recordAnchor (tenantIdHash : Bytes32) (dayUtc : BitVec 64) (terminalHash : Bytes32)
      (rowCountAtAnchor : BitVec 64)
  | transferOwnership (newOwner : Address)
  | renounceOwnership
  deriving DecidableEq

/-- What a call reverts with: an error of the base contract, or `AlreadyAnchored`. -/
inductive AnchorRevert (E : Type)
  | ownable (error : E)
  | alreadyAnchored (key : Bytes32)

namespace AuditAnchor

/-- The constructor; `Ownable` takes any owner but the zero address. -/
def deployed (initialOwner : Address) : AuditAnchor := ⟨initialOwner, fun _ => false, fun _ => .unset⟩

/-- `abi.encode(tenantIdHash, dayUtc)`: two words. -/
def abiEncode (tenantIdHash : Bytes32) (dayUtc : BitVec 64) : List UInt8 :=
  bigEndian 32 tenantIdHash.toNat ++ bigEndian 32 dayUtc.toNat

section

variable {E : Type} (keccak256 : List UInt8 → Bytes32) (ownable : Ownable E)

def anchorKey (tenantIdHash : Bytes32) (dayUtc : BitVec 64) : Bytes32 :=
  keccak256 (abiEncode tenantIdHash dayUtc)

def recordAnchor (tenantIdHash : Bytes32) (dayUtc : BitVec 64) (terminalHash : Bytes32)
    (rowCountAtAnchor : BitVec 64) (s : AuditAnchor) : Except (AnchorRevert E) AuditAnchor :=
  let key := anchorKey keccak256 tenantIdHash dayUtc
  if s.anchored key = true then .error (.alreadyAnchored key)
  else
    .ok { s with
      anchored := Function.update s.anchored key true
      records := Function.update s.records key ⟨tenantIdHash, dayUtc, terminalHash, rowCountAtAnchor⟩ }

def exec (sender : Address) (call : AnchorCall) (s : AuditAnchor) :
    Except (AnchorRevert E) AuditAnchor :=
  match call with
  | .recordAnchor tenantIdHash dayUtc terminalHash rowCountAtAnchor =>
      match ownable.checkOwner sender s.owner with
      | .error e => .error (.ownable e)
      | .ok () => s.recordAnchor keccak256 tenantIdHash dayUtc terminalHash rowCountAtAnchor
  | .transferOwnership newOwner =>
      match ownable.transferOwnership sender newOwner s.owner with
      | .error e => .error (.ownable e)
      | .ok owner => .ok { s with owner }
  | .renounceOwnership =>
      match ownable.renounceOwnership sender s.owner with
      | .error e => .error (.ownable e)
      | .ok owner => .ok { s with owner }

/-- `(exists, terminalHash, rowCountAtAnchor)`. -/
def getAnchor (tenantIdHash : Bytes32) (dayUtc : BitVec 64) (s : AuditAnchor) :
    Bool × Bytes32 × BitVec 64 :=
  let key := anchorKey keccak256 tenantIdHash dayUtc
  if s.anchored key = true then
    (true, (s.records key).terminalHash, (s.records key).rowCountAtAnchor)
  else (false, 0, 0)

end

end AuditAnchor

def auditAnchor {E : Type} (keccak256 : List UInt8 → Bytes32) (ownable : Ownable E) :
    Contract Address AnchorCall (AnchorRevert E) AuditAnchor :=
  ⟨AuditAnchor.exec keccak256 ownable⟩

namespace AuditAnchor

/-! ## Keys -/

theorem abiEncode_injective {t t' : Bytes32} {d d' : BitVec 64} (h : abiEncode t d = abiEncode t' d') :
    t = t' ∧ d = d' := by
  have hlength : (bigEndian 32 t.toNat).length = (bigEndian 32 t'.toNat).length := by
    rw [length_bigEndian, length_bigEndian]
  obtain ⟨ht, hd⟩ := List.append_inj h hlength
  have hval (n m : ℕ) (hn : n < 256 ^ 32) (hm : m < 256 ^ 32) (heq : bigEndian 32 n = bigEndian 32 m) :
      n = m := by
    have hn' := foldl_shiftIn_bigEndian 32 n 0
    have hm' := foldl_shiftIn_bigEndian 32 m 0
    rw [heq, hm'] at hn'
    rw [Nat.mod_eq_of_lt hn, Nat.mod_eq_of_lt hm] at hn'
    omega
  have hbig : 2 ^ 64 ≤ 256 ^ 32 := by decide
  have hword : 2 ^ 256 = 256 ^ 32 := rfl
  refine ⟨BitVec.eq_of_toNat_eq (hval _ _ ?_ ?_ ht), BitVec.eq_of_toNat_eq (hval _ _ ?_ ?_ hd)⟩
  · exact hword ▸ t.isLt
  · exact hword ▸ t'.isLt
  · exact lt_of_lt_of_le d.isLt hbig
  · exact lt_of_lt_of_le d'.isLt hbig

/-- The pairs that some calls record for. -/
def pairsOf (calls : List (Address × AnchorCall)) : List (Bytes32 × BitVec 64) :=
  calls.filterMap fun
    | (_, .recordAnchor tenantIdHash dayUtc _ _) => some (tenantIdHash, dayUtc)
    | _ => none

/-- `keccak256` is injective on the encodings of some pairs. -/
def NoCollision (keccak256 : List UInt8 → Bytes32) (pairs : List (Bytes32 × BitVec 64)) : Prop :=
  ∀ p ∈ pairs, ∀ q ∈ pairs, keccak256 (abiEncode p.1 p.2) = keccak256 (abiEncode q.1 q.2) →
    abiEncode p.1 p.2 = abiEncode q.1 q.2

variable {E : Type} {keccak256 : List UInt8 → Bytes32} {ownable : Ownable E} {sender : Address}
  {call : AnchorCall} {s s' : AuditAnchor} {t : Bytes32} {d : BitVec 64} {hash : Bytes32}
  {n : BitVec 64}

/-! ## What a call can do -/

/-- A call of the owner that records an anchor for the first time. -/
theorem exec_recordAnchor (hs : s.exec keccak256 ownable sender (.recordAnchor t d hash n) = .ok s') :
    sender = s.owner ∧ s.anchored (anchorKey keccak256 t d) = false ∧
      s' = { s with
        anchored := Function.update s.anchored (anchorKey keccak256 t d) true
        records := Function.update s.records (anchorKey keccak256 t d) ⟨t, d, hash, n⟩ } := by
  dsimp only [exec] at hs
  split at hs
  · cases hs
  · next howner =>
      dsimp only [recordAnchor] at hs
      split at hs
      · cases hs
      · next hfresh =>
          exact ⟨(ownable.only _ _).mp howner, by simpa using hfresh, (Except.ok.inj hs).symm⟩

/-- The inherited calls leave every anchor as it is. -/
theorem exec_ownable (hcall : ∀ t d hash n, call ≠ .recordAnchor t d hash n)
    (hs : s.exec keccak256 ownable sender call = .ok s') :
    s'.anchored = s.anchored ∧ s'.records = s.records := by
  cases call with
  | recordAnchor t d hash n => exact absurd rfl (hcall t d hash n)
  | transferOwnership newOwner =>
      dsimp only [exec] at hs
      split at hs
      · cases hs
      · obtain rfl := Except.ok.inj hs
        exact ⟨rfl, rfl⟩
  | renounceOwnership =>
      dsimp only [exec] at hs
      split at hs
      · cases hs
      · obtain rfl := Except.ok.inj hs
        exact ⟨rfl, rfl⟩

/-- What a set flag guards: no call that succeeds writes a record again. -/
theorem record_kept {key : Bytes32} {r : AnchorRecord} (h : s.anchored key = true ∧ s.records key = r)
    (hs : s.exec keccak256 ownable sender call = .ok s') :
    s'.anchored key = true ∧ s'.records key = r := by
  by_cases hcall : ∃ t d hash n, call = .recordAnchor t d hash n
  · obtain ⟨t, d, hash, n, rfl⟩ := hcall
    obtain ⟨-, hfresh, rfl⟩ := exec_recordAnchor hs
    have hne : key ≠ anchorKey keccak256 t d := by
      rintro rfl
      rw [h.1] at hfresh
      cases hfresh
    dsimp only
    rw [Function.update_of_ne hne, Function.update_of_ne hne]
    exact h
  · have hne : ∀ t d hash n, call ≠ .recordAnchor t d hash n := by
      intro t d hash n heq
      exact hcall ⟨t, d, hash, n, heq⟩
    obtain ⟨hanchored, hrecords⟩ := exec_ownable hne hs
    rw [hanchored, hrecords]
    exact h

/-- A record, once written, is there after every further sequence of calls. -/
theorem anchored_after {key : Bytes32} {r : AnchorRecord}
    (h : s.anchored key = true ∧ s.records key = r) (calls : List (Address × AnchorCall)) :
    ((auditAnchor keccak256 ownable).after s calls).anchored key = true ∧
      ((auditAnchor keccak256 ownable).after s calls).records key = r :=
  Contract.after_invariant (K := auditAnchor keccak256 ownable)
    (I := fun s => s.anchored key = true ∧ s.records key = r)
    (fun _ _ _ hkey hx => record_kept hkey hx) h calls

theorem getAnchor_eq (h : s.anchored (anchorKey keccak256 t d) = true ∧
    s.records (anchorKey keccak256 t d) = ⟨t, d, hash, n⟩) :
    s.getAnchor keccak256 t d = (true, hash, n) := by
  rw [getAnchor, if_pos h.1, h.2]

/-- What a successful call has recorded is read back from then on. -/
theorem getAnchor_after (hs : s.exec keccak256 ownable sender (.recordAnchor t d hash n) = .ok s')
    (calls : List (Address × AnchorCall)) :
    ((auditAnchor keccak256 ownable).after s' calls).getAnchor keccak256 t d = (true, hash, n) := by
  obtain ⟨-, -, rfl⟩ := exec_recordAnchor hs
  exact getAnchor_eq (anchored_after ⟨Function.update_self .., Function.update_self ..⟩ calls)

/-- An anchored pair: a call for it reverts. -/
theorem exec_again (h : s.anchored (anchorKey keccak256 t d) = true) (sender : Address)
    (hash : Bytes32) (n : BitVec 64) :
    ∃ e, s.exec keccak256 ownable sender (.recordAnchor t d hash n) = .error e := by
  cases hs : s.exec keccak256 ownable sender (.recordAnchor t d hash n) with
  | error e => exact ⟨e, rfl⟩
  | ok s' =>
      have hfresh := (exec_recordAnchor hs).2.1
      rw [h] at hfresh
      cases hfresh

/-- A call for another pair, or of the base contract, does not touch this pair. -/
theorem getAnchor_apply (hkeccak : ∀ t' d' hash n, call = .recordAnchor t' d' hash n →
      anchorKey keccak256 t' d' ≠ anchorKey keccak256 t d) :
    ((auditAnchor keccak256 ownable).apply s (sender, call)).getAnchor keccak256 t d =
      s.getAnchor keccak256 t d := by
  cases hs : (auditAnchor keccak256 ownable).exec sender call s with
  | error e => rw [Contract.apply_error hs]
  | ok s' =>
      rw [Contract.apply_ok hs]
      by_cases hcall : ∃ t d hash n, call = .recordAnchor t d hash n
      · obtain ⟨t', d', hash, n, rfl⟩ := hcall
        obtain ⟨-, -, rfl⟩ := exec_recordAnchor hs
        have hne := (hkeccak t' d' hash n rfl).symm
        simp only [getAnchor, Function.update_of_ne hne]
      · have hne : ∀ t d hash n, call ≠ .recordAnchor t d hash n := by
          intro t d hash n heq
          exact hcall ⟨t, d, hash, n, heq⟩
        obtain ⟨hanchored, hrecords⟩ := exec_ownable hne hs
        simp only [getAnchor, hanchored, hrecords]

/-- A pair with an anchor has been recorded by a call of the owner of that time. -/
theorem recorded_of_anchored (initialOwner : Address) (t : Bytes32) (d : BitVec 64)
    (calls : List (Address × AnchorCall)) (hkeccak : NoCollision keccak256 ((t, d) :: pairsOf calls))
    (h : ((auditAnchor keccak256 ownable).after (deployed initialOwner) calls).anchored
      (anchorKey keccak256 t d) = true) :
    ∃ before sender hash n later s',
      calls = before ++ (sender, .recordAnchor t d hash n) :: later ∧
      sender = ((auditAnchor keccak256 ownable).after (deployed initialOwner) before).owner ∧
      ((auditAnchor keccak256 ownable).after (deployed initialOwner) before).exec keccak256 ownable
        sender (.recordAnchor t d hash n) = .ok s' := by
  induction calls using List.reverseRecOn with
  | nil => cases h
  | append_singleton calls x ih =>
      obtain ⟨sender, call⟩ := x
      have hpairs : ∀ p ∈ (t, d) :: pairsOf calls, p ∈ (t, d) :: pairsOf (calls ++ [(sender, call)]) := by
        intro p hp
        rcases List.mem_cons.mp hp with rfl | hp
        · exact List.mem_cons_self
        · refine List.mem_cons_of_mem _ ?_
          rw [pairsOf, List.filterMap_append]
          exact List.mem_append_left _ hp
      by_cases hbefore : ((auditAnchor keccak256 ownable).after (deployed initialOwner) calls).anchored
          (anchorKey keccak256 t d) = true
      · obtain ⟨before, sender', hash, n, later, s', rfl, howner, hs⟩ :=
          ih (fun p hp q hq => hkeccak p (hpairs p hp) q (hpairs q hq)) hbefore
        exact ⟨before, sender', hash, n, later ++ [(sender, call)], s', by simp, howner, hs⟩
      · -- the last call has set the flag
        rw [Contract.after_append] at h
        change ((auditAnchor keccak256 ownable).apply _ (sender, call)).anchored _ = true at h
        cases hs : (auditAnchor keccak256 ownable).exec sender call
            ((auditAnchor keccak256 ownable).after (deployed initialOwner) calls) with
        | error e =>
            rw [Contract.apply_error hs] at h
            exact absurd h hbefore
        | ok s' =>
            rw [Contract.apply_ok hs] at h
            by_cases hcall : ∃ t d hash n, call = .recordAnchor t d hash n
            · obtain ⟨t', d', hash, n, rfl⟩ := hcall
              obtain ⟨howner, -, heq⟩ := exec_recordAnchor hs
              have hkey : anchorKey keccak256 t d = anchorKey keccak256 t' d' := by
                by_contra hne
                rw [heq] at h
                dsimp only at h
                rw [Function.update_of_ne hne] at h
                exact hbefore h
              have hmem : (t', d') ∈ (t, d) :: pairsOf (calls ++ [(sender, .recordAnchor t' d' hash n)]) := by
                refine List.mem_cons_of_mem _ ?_
                rw [pairsOf, List.filterMap_append]
                exact List.mem_append_right _ (by simp)
              obtain ⟨rfl, rfl⟩ := abiEncode_injective
                (hkeccak (t, d) List.mem_cons_self (t', d') hmem hkey)
              exact ⟨calls, sender, hash, n, [], s', rfl, howner, hs⟩
            · have hne : ∀ t d hash n, call ≠ .recordAnchor t d hash n := by
                intro t d hash n heq
                exact hcall ⟨t, d, hash, n, heq⟩
              rw [(exec_ownable hne hs).1] at h
              exact absurd h hbefore

/-- Anchors are written once.  Along every sequence of calls by anyone, for every pair:
    what a successful call has recorded is read back from then on; an anchor that is read
    was recorded by such a call of the owner of that time; every further attempt reverts;
    and no call for another pair, or of the base contract, changes what is read. -/
theorem write_once (keccak256 : List UInt8 → Bytes32) (ownable : Ownable E) (initialOwner : Address)
    (calls : List (Address × AnchorCall)) (t : Bytes32) (d : BitVec 64)
    (hkeccak : NoCollision keccak256 ((t, d) :: pairsOf calls)) :
    let K := auditAnchor keccak256 ownable
    let after := fun calls => K.after (deployed initialOwner) calls
    (∀ before sender hash n later,
      calls = before ++ (sender, .recordAnchor t d hash n) :: later →
      ∀ s', K.exec sender (.recordAnchor t d hash n) (after before) = .ok s' →
        (after calls).getAnchor keccak256 t d = (true, hash, n) ∧
        ∀ sender hash n, (∃ e, K.exec sender (.recordAnchor t d hash n) (after calls) = .error e) ∧
          K.apply (after calls) (sender, .recordAnchor t d hash n) = after calls) ∧
    (∀ hash n, (after calls).getAnchor keccak256 t d = (true, hash, n) →
      ∃ before sender later s', calls = before ++ (sender, .recordAnchor t d hash n) :: later ∧
        sender = (after before).owner ∧
        K.exec sender (.recordAnchor t d hash n) (after before) = .ok s') ∧
    ∀ before sender call later, calls = before ++ (sender, call) :: later →
      (∀ hash n, call ≠ .recordAnchor t d hash n) →
        (K.apply (after before) (sender, call)).getAnchor keccak256 t d =
          (after before).getAnchor keccak256 t d := by
  intro K after
  -- what is read after all calls is what the later ones have left of `s'`
  have hread {before later : List (Address × AnchorCall)} {sender : Address} {hash : Bytes32}
      {n : BitVec 64} {s' : AuditAnchor}
      (hcalls : calls = before ++ (sender, .recordAnchor t d hash n) :: later)
      (hs : K.exec sender (.recordAnchor t d hash n) (after before) = .ok s') :
      after calls = K.after s' later := by
    have happly : K.apply (after before) (sender, .recordAnchor t d hash n) = s' :=
      Contract.apply_ok hs
    change K.after _ calls = _
    rw [hcalls, Contract.after_append, Contract.after_cons]
    exact congrArg (fun s => K.after s later) happly
  refine ⟨?_, ?_, ?_⟩
  · intro before sender hash n later hcalls s' hs
    have hstored := exec_recordAnchor hs
    have hkept : (after calls).anchored (anchorKey keccak256 t d) = true ∧
        (after calls).records (anchorKey keccak256 t d) = ⟨t, d, hash, n⟩ := by
      rw [hread hcalls hs]
      refine anchored_after ?_ later
      rw [hstored.2.2]
      exact ⟨Function.update_self .., Function.update_self ..⟩
    refine ⟨getAnchor_eq hkept, fun sender' hash' n' => ?_⟩
    -- an attempt for a recorded pair reverts
    obtain ⟨e, he⟩ := @exec_again _ _ ownable _ _ _ hkept.1 sender' hash' n'
    exact ⟨⟨e, he⟩, Contract.apply_error (K := K) he⟩
  · intro hash n hget
    have hanchored : (after calls).anchored (anchorKey keccak256 t d) = true := by
      by_contra hne
      rw [getAnchor, if_neg hne] at hget
      cases hget
    -- what is anchored was recorded by some call
    obtain ⟨before, sender, hash', n', later, s', hcalls, howner, hs⟩ :=
      recorded_of_anchored initialOwner t d calls hkeccak hanchored
    have hvalue : (after calls).getAnchor keccak256 t d = (true, hash', n') := by
      rw [hread hcalls hs]
      exact getAnchor_after hs later
    rw [hvalue] at hget
    obtain ⟨-, hrest⟩ := Prod.mk.inj hget
    obtain ⟨rfl, rfl⟩ := Prod.mk.inj hrest
    exact ⟨before, sender, later, s', hcalls, howner, hs⟩
  · intro before sender call later hcalls hother
    apply getAnchor_apply
    rintro t' d' hash n rfl hkey
    -- another pair has another key, for the hashes of the run do not collide
    have hmem : (t', d') ∈ (t, d) :: pairsOf calls := by
      refine List.mem_cons_of_mem _ ?_
      rw [hcalls, pairsOf, List.filterMap_append]
      exact List.mem_append_right _ (by simp)
    obtain ⟨rfl, rfl⟩ := abiEncode_injective (hkeccak (t', d') hmem (t, d) List.mem_cons_self hkey)
    exact hother hash n rfl

/-- `Ownable` as documented. -/
def documentedOwnable : Ownable JsString where
  checkOwner sender owner :=
    if sender = owner then .ok () else .error (js "OwnableUnauthorizedAccount")
  transferOwnership sender newOwner owner :=
    if sender ≠ owner then .error (js "OwnableUnauthorizedAccount")
    else if newOwner = 0 then .error (js "OwnableInvalidOwner") else .ok newOwner
  renounceOwnership sender owner :=
    if sender ≠ owner then .error (js "OwnableUnauthorizedAccount") else .ok 0
  only sender owner := by
    by_cases h : sender = owner
    · simp [h]
    · simp [h]

/-- Keccak-256 of 64 zero bytes; other inputs do not occur. -/
def keccakOfZeros (_ : List UInt8) : Bytes32 :=
  0xad3228b676f7d3cd4284a5443f17f1962b36e491b30a40b2405849e597ba5fb5

/-- A second owner tries to write the anchor again. -/
theorem write_once_again :
    ((auditAnchor keccakOfZeros documentedOwnable).after (deployed 1)
      [(1, .recordAnchor 0 0 7 3), (1, .transferOwnership 2), (2, .recordAnchor 0 0 9 4)]).getAnchor
        keccakOfZeros 0 0 = (true, 7, 3) :=
  ((write_once keccakOfZeros documentedOwnable 1
    [(1, .recordAnchor 0 0 7 3), (1, .transferOwnership 2), (2, .recordAnchor 0 0 9 4)] 0 0
    (by
      intro p hp q hq _
      have hzero : ∀ r ∈ (0, 0) :: pairsOf [(1, .recordAnchor 0 0 7 3), (1, .transferOwnership 2),
          (2, .recordAnchor 0 0 9 4)], r = (0, 0) := by
        intro r hr
        simpa [pairsOf] using hr
      rw [hzero p hp, hzero q hq])).1 [] 1 7 3 _ rfl _ rfl).1

end AuditAnchor

end ZeroAuth.Contracts
