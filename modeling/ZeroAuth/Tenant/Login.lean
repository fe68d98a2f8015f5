/-
  ZeroAuth.Tenant.Login

  What a registration leaves for the login.

  The registration writes the DID and the commitment of a user twice: into columns, of which the
  first has a unique index, and with the hash of the commitment into the metadata.  The login of
  `ZeroAuth.Pairing` reads the metadata.  Nothing in the database keeps the two alike; the other
  writers of `tenant_users` take the metadata from their caller.  As long as these leave the key
  `did` alone, the login of a registered DID finds the one user of the registration, and what it
  compares the signals with is the number that was proved there.
-/

import ZeroAuth.Js.JsonOrder
import ZeroAuth.Lib.Solo
import ZeroAuth.Pairing.Signals
import ZeroAuth.Tenant.Completion

namespace ZeroAuth.Tenant

open ZeroAuth.Lib ZeroAuth.Lib.Prog ZeroAuth.Js ZeroAuth.Pg

/-! ## The condition -/

/-- The writers that take metadata from their caller: a new user has no key `did` in it, and an
    update none at all. -/
def Sql.SparesMetadata : Sql → Prop
  | insertUser _ _ v => v.metadata.get? (js "did") = none
  | updateUser _ _ _ v => v.metadata = none
  | _ => True

def Op.SparesMetadata : Op → Prop
  | .pool q | .query q => q.SparesMetadata
  | _ => True

/-- A write of a statement that the services make, with the metadata left alone. -/
def LoginWrite (cfg : Settings) (pg : Jsonb) (write : Write) : Prop :=
  ∃ q : Sql, q.Shaped cfg ∧ q.SparesMetadata ∧ Change pg q write

theorem guards_login (cfg : Settings) (pg : Jsonb) :
    Guards pg (fun _ o _ _ => Op.Shaped cfg o ∧ o.SparesMetadata) (LoginWrite cfg pg) :=
  ⟨fun hok _ _ hchange => ⟨_, hok.1, hok.2, hchange⟩, fun hok _ _ _ hchange => ⟨_, hok.1, hok.2, hchange⟩⟩

/-! ## One user -/

/-- The metadata of a registration: the DID, and the commitment and its hash in decimal. -/
structure TenantUser.Enrolled (cfg : Settings) (u : TenantUser) (did : JsString) (n : ℤ) : Prop where
  did : u.metadata.get? (js "did") = some (.str did)
  hash : u.metadata.get? (js "did_hash") = some (.str (signedText 10 (cfg.poseidon1 n)))
  commitment : u.metadata.get? (js "commitment") = some (.str (signedText 10 n))

/-- A DID in the metadata is the one of the column. -/
def Row.DidAgrees : Row → Prop
  | .user u => ∀ v, u.metadata.get? (js "did") = some v → v = .null ∨ ∃ did, v = .str did ∧ u.did = some did
  | _ => True

section Writes

variable {cfg : Settings} {pg : Jsonb}

theorem keys_registeredUser (s : RegistrationSession) (n : ℤ) :
    ∃ props, (registeredUser cfg s n).metadata = .obj props ∧ (props.map Prod.fst).Nodup := by
  refine ⟨_, rfl, ?_⟩
  show [js "via", js "sessionId", js "did", js "did_hash", js "commitment"].Nodup
  decide

/-- What the registration writes into the metadata is read back from the row. -/
theorem get?_registered (s : RegistrationSession) (n : ℤ) {key : JsString} {v : Json}
    (hget : (registeredUser cfg s n).metadata.get? key = some v) :
    ∃ v', (pg.store (registeredUser cfg s n).metadata).get? key = some v' ∧ v'.Same v := by
  have hprops : ∃ props, (registeredUser cfg s n).metadata = .obj props ∧
      (props.map Prod.fst).Nodup := keys_registeredUser s n
  obtain ⟨props, hprops, hkeys⟩ := hprops
  rw [hprops] at hget ⊢
  exact (pg.store_same (.obj props)).get?_some hkeys hget

theorem did_registeredUser (s : RegistrationSession) (n : ℤ) :
    (registeredUser cfg s n).metadata.get? (js "did") = some ((s.did.map Json.str).getD .null) := rfl

theorem enrolled_of_registered (s : RegistrationSession) (n : ℤ) {did : JsString}
    (hdid : s.did = some did) (id : Uuid) (now : ℕ) :
    (registeredRow cfg pg s n id now).Enrolled cfg did n := by
  have hread : ∀ key text, (registeredUser cfg s n).metadata.get? key = some (.str text) →
      (pg.store (registeredUser cfg s n).metadata).get? key = some (.str text) := by
    intro key text hget
    have hback : ∃ v, (pg.store (registeredUser cfg s n).metadata).get? key = some v ∧
        v.Same (.str text) := get?_registered s n hget
    obtain ⟨v, hv, hsame⟩ := hback
    rw [hv, hsame.eq_str]
  refine ⟨hread _ _ ?_, hread _ _ rfl, hread _ _ rfl⟩
  rw [did_registeredUser, hdid]
  rfl

theorem didAgrees_of_login {write : Write} (h : LoginWrite cfg pg write)
    (hold : ∀ old new, write = .update old new → old.DidAgrees) : (newRow write).DidAgrees := by
  obtain ⟨q, hshaped, hspares, hchange⟩ := h
  cases hchange with
  -- a user of the API is stored without a DID,
  | userCreated id u now =>
      intro v hget
      have hnone := (pg.store_same _).get?_none hspares
      have hsome : (pg.store _).get? (js "did") = some v := hget
      rw [hnone] at hsome
      cases hsome
  -- one of a registration with the DID of its session
  | userRegistered id now =>
      obtain ⟨s, text, n, -, -, rfl⟩ := hshaped
      intro v hget
      have hback : ∃ v', (pg.store (registeredUser cfg s n).metadata).get? (js "did") = some v' ∧
          v'.Same ((s.did.map Json.str).getD .null) := get?_registered s n (did_registeredUser s n)
      obtain ⟨v', hv', hsame⟩ := hback
      obtain rfl : v' = v := Option.some.inj (hv'.symm.trans hget)
      cases hdid : s.did with
      | some did =>
          rw [hdid] at hsame
          exact .inr ⟨did, Json.Same.eq_str hsame, hdid⟩
      | none =>
          rw [hdid] at hsame
          exact .inl (Json.Same.eq_null hsame)
  | faceFirst id u now =>
      intro v hget
      cases hget
  | @userUpdated userId tenantId environment v r u now hown =>
      obtain ⟨fullName, email, phone, employeeCode, status, primaryDeviceId, metadata⟩ := v
      obtain rfl : metadata = none := hspares
      have hkept : (Row.user r).DidAgrees := hold _ _ rfl
      exact hkept
  | _ => trivial

/-- What an update leaves of the columns that the login reads. -/
def Row.SameLogin (u : TenantUser) : Row → Prop
  | .user u' => u'.metadata = u.metadata ∧ u'.did = u.did ∧ u'.commitment = u.commitment ∧
      (Row.user u').owner = (Row.user u).owner
  | _ => False

theorem sameLogin_kept {u : TenantUser} {old new : Row} (h : LoginWrite cfg pg (.update old new))
    (hold : old.SameLogin u) : new.SameLogin u := by
  obtain ⟨q, -, hspares, hchange⟩ := h
  cases hchange with
  | @userUpdated userId tenantId environment v r u' now hown =>
      obtain ⟨fullName, email, phone, employeeCode, status, primaryDeviceId, metadata⟩ := v
      obtain rfl : metadata = none := hspares
      exact hold
  | _ => exact hold.elim

end Writes

/-- The steps of a run leave the metadata of users alone. -/
abbrev MetadataSpared : State → Label Call Oracle Env → Prop :=
  System.OnlyWhere fun _ o _ _ => Op.SparesMetadata o

section Reach

variable {cfg : Settings} {pg : Jsonb} {c : State} {s : RegistrationSession} {did : JsString}

theorem inv_login (h : (system cfg pg).Reach Empty MetadataSpared c) :
    Inv pg (LoginWrite cfg pg) c.world := by
  refine inv_of_reach (guards_login cfg pg) (fun _ _ _ a past o k hgood hth => ?_) (reach_shaped h)
  exact ⟨hgood.2 a past o k hth, hgood.1 a past o k hth⟩

theorem did_agrees (h : (system cfg pg).Reach Empty MetadataSpared c) {u : TenantUser}
    (hu : u ∈ Db.users c.world.store.db) : (Row.user u).DidAgrees := by
  have hi := inv_login h
  have hrows : ∀ r ∈ c.world.store.db, r.DidAgrees := by
    rw [hi.serial.db_eq]
    exact Keyed.forall_of_runs (fun write hallowed => didAgrees_of_login hallowed.2)
      hi.serial.history
  exact hrows _ (mem_users.mp hu)

/-- The user of a completed session is there, as the registration has left it. -/
theorem enrolled_of_completed (h : (system cfg pg).Reach Empty MetadataSpared c)
    (hs : s ∈ Db.sessions c.world.store.db) (hdone : s.state = .completed)
    (hdid : s.did = some did) :
    ∃ u ∈ Db.users c.world.store.db, ∃ text n, s.tenantUserId = some u.id ∧
      (Row.user u).owner = (Row.session s).owner ∧ u.did = some did ∧
      s.commitment = some text ∧ parseCommitmentText text = some n ∧ u.Enrolled cfg did n := by
  have hall : (system cfg pg).Reach Empty (fun _ _ => True) c := h.mono fun _ _ _ => trivial
  obtain ⟨userId, huser⟩ := Option.isSome_iff_exists.mp ((session_ok hall hs).user.mpr hdone)
  obtain ⟨t, input, s₀, text, n, now, now', hverified, hws, hid⟩ := completed_of_user hall hs huser
  have hinsert := Store.mem_committedBy.mp (hws ▸ List.mem_cons_self)
  have hupdate := Store.mem_committedBy.mp
    (hws ▸ List.mem_cons_of_mem _ (List.mem_singleton_self _))
  obtain ⟨hsdid, hscommitment, hsowner⟩ := kept_of_completed hall hs hupdate hid
  have hdid₀ : s₀.did = some did := hsdid.symm.trans hdid
  -- the row that was inserted, as it is now
  obtain ⟨r, hr, hrow, hsame⟩ := (inv_login h).persists
    (P := (Row.SameLogin (registeredRow cfg pg s₀ n userId now)))
    (fun q old new _ hwrite hold => sameLogin_kept hwrite hold) hinsert ⟨rfl, rfl, rfl, rfl⟩
  cases r with
  | user u =>
      obtain ⟨hmetadata, hcolumn, -, howner⟩ := hsame
      have henrolled : (registeredRow cfg pg s₀ n userId now).Enrolled cfg did n :=
        enrolled_of_registered s₀ n hdid₀ userId now
      refine ⟨u, mem_users.mpr hr, text, n, ?_, howner.trans hsowner.symm, hcolumn.trans hdid₀,
        hscommitment.trans hverified.stored, hverified.value, ?_⟩
      · rw [huser, RowId.user.inj hrow]
        rfl
      · constructor
        · rw [hmetadata]
          exact henrolled.did
        · rw [hmetadata]
          exact henrolled.hash
        · rw [hmetadata]
          exact henrolled.commitment
  | device d => exact hsame.elim
  | session s' => exact hsame.elim

/-- No other user of the environment has the DID in its metadata. -/
theorem eq_of_usersByDid (h : (system cfg pg).Reach Empty MetadataSpared c) {w : Pairing.World}
    (hw : w.users = Db.users c.world.store.db) {u x : TenantUser}
    (hu : u ∈ Db.users c.world.store.db) (hdid : u.did = some did)
    (hx : x ∈ w.usersByDid pg u.tenantId u.environment did) : x = u := by
  obtain ⟨hmem, hfound⟩ := List.mem_filter.mp hx
  obtain ⟨htenant, henv, htext⟩ := of_decide_eq_true hfound
  rw [hw] at hmem
  have hxdid : x.did = some did := by
    cases hget : x.metadata.get? (js "did") with
    | none =>
        rw [Jsonb.arrowText, hget] at htext
        cases htext
    | some v =>
        rcases did_agrees h hmem v hget with rfl | ⟨did', rfl, hcolumn⟩
        · rw [Jsonb.arrowText, hget] at htext
          cases htext
        · rw [Jsonb.arrowText, hget] at htext
          rw [hcolumn]
          exact htext
  have hall : (system cfg pg).Reach Empty (fun _ _ => True) c := h.mono fun _ _ _ => trivial
  exact eq_of_did hall hu hmem (Prod.ext htenant henv) hdid hxdid

end Reach

/-! ## The checks of a login -/

/-- The login runs by itself and none of its statements fails. -/
def Alone (pg : Jsonb) (o : Pairing.sig.Op) (w : Pairing.World)
    (r : Except Pairing.Failure (Pairing.sig.Resp o)) (w' : Pairing.World) : Prop :=
  ∃ ω : Pairing.Oracle, ω.failure = none ∧ Pairing.exec pg o ω w = some (r, w')

/-- Checks 4 to 7 of `submitProof`, in the middle of `Pairing.checkRow`. -/
def identityChecks (pairing : Pairing.Settings) (input : Pairing.SubmitInput)
    (row : Pairing.SessionRow) : Pairing.Program Pairing.StoredUserCommitment := do
  let (user, signal₁) ← Pairing.checkUser input
  Pairing.checkNonce pairing input row user signal₁
  return user

section Alone

variable {cfg : Settings} {pg : Jsonb} {w w' : Pairing.World}

/-- Every operation of a login is answered. -/
theorem exists_alone (o : Pairing.sig.Op) (w : Pairing.World) : ∃ r w', Alone pg o w r w' := by
  cases o with
  | randomBytes n =>
      refine ⟨.ok (List.replicate n 0), w, { bytes := List.replicate n 0 }, rfl, ?_⟩
      show (if _ then _ else _) = _
      rw [if_pos (List.length_replicate ..)]
  | _ => exact ⟨_, _, {}, rfl, rfl⟩

/-- What the login has found, in the form in which it goes on. -/
def storedCommitment (cfg : Settings) (userId : Uuid) (n : ℤ) : Pairing.StoredUserCommitment :=
  ⟨userId, signedText 10 (cfg.poseidon1 n), signedText 10 n⟩

theorem signedText_ne_nil (i : ℤ) : signedText 10 i ≠ [] := by
  rw [signedText]
  split
  · exact List.cons_ne_nil _ _
  · exact numText_ne_nil 10 _

theorem parse_signedText (i : ℤ) : Pairing.parseBigIntText (signedText 10 i) = .ok i := by
  have htrim : trim (signedText 10 i) = signedText 10 i := by
    refine trim_of_forall fun u hu => ?_
    rw [signedText] at hu
    split at hu
    · rcases List.mem_cons.mp hu with rfl | hu
      · decide
      · exact isWhiteSpace_of_digit (val_of_mem_numText hu)
    · exact isWhiteSpace_of_digit (val_of_mem_numText hu)
  rw [Pairing.parseBigIntText, htrim, if_neg (signedText_ne_nil i), bigIntOf_signedText]

/-- The SELECT of the login, where one user has the DID. -/
theorem alone_selectUser {u : TenantUser} {tenantId environment did : JsString}
    {r : Except Pairing.Failure (Option (Uuid × Json))} (htenant : Uuid.parse tenantId = some u.tenantId)
    (hu : u ∈ w.usersByDid pg u.tenantId environment did)
    (hone : ∀ x ∈ w.usersByDid pg u.tenantId environment did, x = u) :
    Alone pg (.selectUser tenantId environment did) w r w' ↔
      r = .ok (some (u.id, u.metadata)) ∧ w' = w := by
  have hrows : ∀ pick : ℕ, (w.usersByDid pg u.tenantId environment did)[
      pick % (w.usersByDid pg u.tenantId environment did).length]? = some u := by
    intro pick
    have hlt := Nat.mod_lt pick (List.length_pos_of_mem hu)
    rw [List.getElem?_eq_getElem hlt, hone _ (List.getElem_mem hlt)]
  have hexec : ∀ ω : Pairing.Oracle, ω.failure = none →
      Pairing.exec pg (.selectUser tenantId environment did) ω w =
        some (.ok (some (u.id, u.metadata)), w) := by
    intro ω hω
    show Pairing.statement ω w (Pairing.withUuid tenantId w _) = _
    rw [Pairing.statement, hω, Pairing.withUuid, htenant]
    dsimp only
    rw [hrows, Option.map_some]
  constructor
  · rintro ⟨ω, hω, hx⟩
    rw [hexec ω hω] at hx
    obtain ⟨rfl, rfl⟩ := Prod.mk.inj (Option.some.inj hx)
    exact ⟨rfl, rfl⟩
  · rintro ⟨rfl, rfl⟩
    exact ⟨{}, rfl, hexec _ rfl⟩

/-- What `findUserByDid` makes of the row that it has found. -/
def foundUser : Option (Uuid × Json) → Pairing.Program (Option Pairing.StoredUserCommitment)
  | none => pure none
  | some (id, metadata) =>
      match metadata.get? (js "did_hash"), metadata.get? (js "commitment") with
      | some (.str didHash), some (.str commitment) =>
          pure (if didHash = [] ∨ commitment = [] then none else some ⟨id, didHash, commitment⟩)
      | _, _ => pure none

theorem solo_findUserByDid {u : TenantUser} {tenantId environment did : JsString} {n : ℤ}
    {out : Except Pairing.Failure (Option Pairing.StoredUserCommitment)}
    (htenant : Uuid.parse tenantId = some u.tenantId) (henrolled : u.Enrolled cfg did n)
    (hu : u ∈ w.usersByDid pg u.tenantId environment did)
    (hone : ∀ x ∈ w.usersByDid pg u.tenantId environment did, x = u) :
    Solo (Alone pg) (Pairing.findUserByDid tenantId environment did) w out w' ↔
      out = .ok (some (storedCommitment cfg u.id n)) ∧ w' = w := by
  have hnext : ∀ w₁, Solo (Alone pg) (foundUser (some (u.id, u.metadata))) w₁ out w' ↔
      out = .ok (some (storedCommitment cfg u.id n)) ∧ w' = w₁ := by
    intro w₁
    simp only [foundUser, henrolled.hash, henrolled.commitment, signedText_ne_nil, or_self, if_false]
    exact solo_ret
  refine Iff.trans solo_perform_bind ?_
  constructor
  · rintro (⟨a, w₁, hselect, hrest⟩ | ⟨e, hselect, -⟩)
    · obtain ⟨hrow, rfl⟩ := (alone_selectUser htenant hu hone).mp hselect
      obtain rfl := Except.ok.inj hrow
      exact (hnext _).mp hrest
    · cases ((alone_selectUser htenant hu hone).mp hselect).1
  · rintro ⟨rfl, rfl⟩
    refine .inl ⟨some (u.id, u.metadata), w', (alone_selectUser htenant hu hone).mpr ⟨rfl, rfl⟩, ?_⟩
    exact (hnext _).mpr ⟨rfl, rfl⟩

/-- The first signal is compared with the number that was registered. -/
theorem solo_checkUser {input : Pairing.SubmitInput} {n : ℤ} {userId : Uuid}
    {out : Except Pairing.Failure (Pairing.StoredUserCommitment × Json)}
    (hfind : ∀ found w₁, Solo (Alone pg)
      (Pairing.findUserByDid input.tenantId input.environment input.did) w found w₁ ↔
        found = .ok (some (storedCommitment cfg userId n)) ∧ w₁ = w)
    (h : Solo (Alone pg) (Pairing.checkUser input) w out w') :
    (∃ e, out = .error e ∧ ∀ a b m, Pairing.threeSignals input.publicSignals = some (a, b) →
        Pairing.parseBigIntFromSignal a = .ok m → ¬ Pairing.SameBytes m n) ∨
      ∃ a b m, Pairing.threeSignals input.publicSignals = some (a, b) ∧
        Pairing.parseBigIntFromSignal a = .ok m ∧ Pairing.SameBytes m n ∧
        out = .ok (storedCommitment cfg userId n, b) ∧ w' = w := by
  unfold Pairing.checkUser at h
  rw [solo_bind] at h
  rcases h with ⟨found, w₁, hfound, hrest⟩ | ⟨e, hfound, -⟩
  · obtain ⟨heq, rfl⟩ := (hfind _ _).mp hfound
    obtain rfl := Except.ok.inj heq
    -- fewer than three signals: an error, and no signal to compare
    cases hsignals : Pairing.threeSignals input.publicSignals with
    | none =>
        simp only [hsignals] at hrest
        obtain ⟨rfl, rfl⟩ := hrest
        refine .inl ⟨_, rfl, fun a b m hsome => ?_⟩
        cases hsome
    | some signals =>
        obtain ⟨a, b⟩ := signals
        simp only [hsignals] at hrest
        rcases solo_bind.mp hrest with ⟨m, w₂, hread, hrest₁⟩ | ⟨e, hread, rfl⟩
        · obtain ⟨hm, rfl⟩ := solo_ofExcept.mp hread
          rcases solo_bind.mp hrest₁ with ⟨k, w₃, hstored, hrest₂⟩ | ⟨e, hstored, -⟩
          · obtain ⟨hk, rfl⟩ := solo_ofExcept.mp hstored
            -- what was stored reads back as the number itself
            obtain rfl : k = n := Except.ok.inj (hk.trans (parse_signedText n))
            have hcompare := Pairing.timingSafeBigIntEqual_iff m k
            -- the comparison decides
            by_cases hsame : Pairing.timingSafeBigIntEqual m k = true
            · rw [if_pos hsame] at hrest₂
              obtain ⟨rfl, rfl⟩ := hrest₂
              exact .inr ⟨a, b, m, rfl, hm.symm, hcompare.mp hsame, rfl, rfl⟩
            · rw [if_neg hsame] at hrest₂
              obtain ⟨rfl, -⟩ := hrest₂
              refine .inl ⟨_, rfl, fun a' b' m' hsome hm' hsame' => hsame ?_⟩
              obtain ⟨rfl, rfl⟩ := Prod.mk.inj (Option.some.inj hsome)
              obtain rfl : m' = m := Except.ok.inj (hm'.symm.trans hm.symm)
              exact hcompare.mpr hsame'
          · cases (solo_ofExcept.mp hstored).1.trans (parse_signedText n)
        · obtain ⟨hm, -⟩ := solo_ofExcept.mp hread
          refine .inl ⟨_, rfl, fun a' b' m' hsome hm' => ?_⟩
          obtain ⟨rfl, rfl⟩ := Prod.mk.inj (Option.some.inj hsome)
          cases hm.trans hm'
  · cases ((hfind _ _).mp hfound).1

/-- The second signal is compared with the hash of what was registered and the nonce. -/
theorem solo_checkNonce {pairing : Pairing.Settings} {input : Pairing.SubmitInput}
    {row : Pairing.SessionRow} {signal₁ : Json} {n : ℤ} {userId : Uuid}
    {out : Except Pairing.Failure Unit}
    (h : Solo (Alone pg) (Pairing.checkNonce pairing input row (storedCommitment cfg userId n) signal₁)
      w out w') :
    (∃ x, out = .ok x) ↔ ∃ nonce k, Pairing.nonceHexToField row.nonceHex = .ok nonce ∧
      Pairing.parseBigIntFromSignal signal₁ = .ok k ∧
      Pairing.SameBytes k (pairing.poseidon2 (cfg.poseidon1 n) nonce) := by
  unfold Pairing.checkNonce at h
  rcases solo_bind.mp h with ⟨d, w₁, hstored, hrest⟩ | ⟨e, hstored, -⟩
  · obtain ⟨hd, rfl⟩ := solo_ofExcept.mp hstored
    -- the stored hash reads back as the number itself
    obtain rfl : d = cfg.poseidon1 n := Except.ok.inj (hd.trans (parse_signedText _))
    rcases solo_bind.mp hrest with ⟨nonce, w₂, hfield, hrest₁⟩ | ⟨e, hfield, rfl⟩
    · obtain ⟨hnonce, rfl⟩ := solo_ofExcept.mp hfield
      rcases solo_bind.mp hrest₁ with ⟨k, w₃, hread, hrest₂⟩ | ⟨e, hread, rfl⟩
      · obtain ⟨hk, rfl⟩ := solo_ofExcept.mp hread
        have hcompare := Pairing.timingSafeBigIntEqual_iff k
          (pairing.poseidon2 (cfg.poseidon1 n) nonce)
        -- the comparison decides
        by_cases hsame : Pairing.timingSafeBigIntEqual k
            (pairing.poseidon2 (cfg.poseidon1 n) nonce) = true
        · rw [if_pos hsame] at hrest₂
          obtain ⟨rfl, -⟩ := hrest₂
          exact iff_of_true ⟨_, rfl⟩ ⟨nonce, k, hnonce.symm, hk.symm, hcompare.mp hsame⟩
        · rw [if_neg hsame] at hrest₂
          -- after a mismatch the program throws in any case
          have hthrows : ∀ x, out ≠ .ok x := by
            rintro x rfl
            rcases solo_bind.mp hrest₂ with ⟨a, w₄, -, hraise⟩ | ⟨e, -, herr⟩
            · cases hraise.1
            · cases herr
          refine iff_of_false (fun hok => hok.elim hthrows) ?_
          rintro ⟨nonce', k', hnonce', hk', hsame'⟩
          obtain rfl : nonce' = nonce := Except.ok.inj (hnonce'.symm.trans hnonce.symm)
          obtain rfl : k' = k := Except.ok.inj (hk'.symm.trans hk.symm)
          exact hsame (hcompare.mpr hsame')
      · obtain ⟨hk, -⟩ := solo_ofExcept.mp hread
        refine iff_of_false (fun hok => ?_) ?_
        · obtain ⟨x, hx⟩ := hok
          cases hx
        · rintro ⟨nonce', k', -, hk', -⟩
          cases hk.trans hk'
    · obtain ⟨hnonce, -⟩ := solo_ofExcept.mp hfield
      refine iff_of_false (fun hok => ?_) ?_
      · obtain ⟨x, hx⟩ := hok
        cases hx
      · rintro ⟨nonce', k', hnonce', -⟩
        cases hnonce.trans hnonce'
  · cases (solo_ofExcept.mp hstored).1.trans (parse_signedText _)

theorem threeSignals_eq_some {signals a b : Json} :
    Pairing.threeSignals signals = some (a, b) ↔ ∃ e, signals = .arr [a, b, e] := by
  constructor
  · intro h
    unfold Pairing.threeSignals at h
    split at h
    · next a' b' e =>
        obtain ⟨rfl, rfl⟩ := Prod.mk.inj (Option.some.inj h)
        exact ⟨e, rfl⟩
    · cases h
  · rintro ⟨e, rfl⟩
    rfl

end Alone

/-- What the identity checks accept of a user that was registered with this number: three signals,
    the number and the hash of its hash and the nonce of the session. -/
def Accepted (cfg : Settings) (pairing : Pairing.Settings) (n : ℤ) (row : Pairing.SessionRow)
    (signals : Json) : Prop :=
  ∃ a b e m k nonce, signals = .arr [a, b, e] ∧ Pairing.parseBigIntFromSignal a = .ok m ∧
    Pairing.SameBytes m n ∧ Pairing.nonceHexToField row.nonceHex = .ok nonce ∧
    Pairing.parseBigIntFromSignal b = .ok k ∧
    Pairing.SameBytes k (pairing.poseidon2 (cfg.poseidon1 n) nonce)

/-- In every run that leaves the metadata of users alone, a completed registration has the login
    that it proved: whatever pairing session it is for, the identity checks of a login with the
    DID of the session find the user of the session, and accept the signals of the number that was
    registered and no others. -/
theorem login_of_registered {cfg : Settings} {pg : Jsonb} {c : State} {s : RegistrationSession}
    (h : (system cfg pg).Reach Empty MetadataSpared c) (hs : s ∈ Db.sessions c.world.store.db)
    (hdone : s.state = .completed) {w : Pairing.World} (hw : w.users = Db.users c.world.store.db)
    {input : Pairing.SubmitInput} (hdid : s.did = some input.did)
    (htenant : Uuid.parse input.tenantId = some s.tenantId)
    (henv : input.environment = s.environment) :
    ∃ text n userId, s.commitment = some text ∧ parseCommitmentText text = some n ∧
      s.tenantUserId = some userId ∧ ∀ pairing row,
        Surely (Alone pg) (identityChecks pairing input row) w fun out =>
          ((∃ user, out = .ok user) ↔ Accepted cfg pairing n row input.publicSignals) ∧
            ∀ user, out = .ok user → user.id = userId := by
  obtain ⟨u, hu, text, n, huser, howner, hcolumn, hcommitment, hvalue, henrolled⟩ :=
    enrolled_of_completed h hs hdone hdid
  refine ⟨text, n, u.id, hcommitment, hvalue, huser, fun pairing row =>
    ⟨exists_solo exists_alone _ w, fun out w' hout => ?_⟩⟩
  have hutenant : Uuid.parse input.tenantId = some u.tenantId :=
    htenant.trans (congrArg some (congrArg Prod.fst howner).symm)
  have huenv : input.environment = u.environment := henv.trans (congrArg Prod.snd howner).symm
  have hone : ∀ x ∈ w.usersByDid pg u.tenantId input.environment input.did, x = u := by
    rw [huenv]
    exact fun x hx => eq_of_usersByDid h hw hu hcolumn hx
  have hfound : u ∈ w.usersByDid pg u.tenantId input.environment input.did := by
    refine List.mem_filter.mpr ⟨hw ▸ hu, decide_eq_true ⟨rfl, huenv.symm, ?_⟩⟩
    rw [Jsonb.arrowText, henrolled.did]
  have hfind : ∀ found w₁, Solo (Alone pg)
      (Pairing.findUserByDid input.tenantId input.environment input.did) w found w₁ ↔
        found = .ok (some (storedCommitment cfg u.id n)) ∧ w₁ = w :=
    fun found w₁ => solo_findUserByDid hutenant henrolled hfound hone
  -- the two checks one after the other
  rcases solo_bind.mp hout with ⟨⟨user, signal₁⟩, w₁, hcheck, hrest⟩ | ⟨e, hcheck, rfl⟩
  · rcases solo_checkUser hfind hcheck with ⟨e, herr, -⟩ | ⟨a, b, m, hsignals, hm, hsame, heq, rfl⟩
    · cases herr
    · obtain ⟨rfl, rfl⟩ := Prod.mk.inj (Except.ok.inj heq)
      obtain ⟨e, hthree⟩ := threeSignals_eq_some.mp hsignals
      rcases solo_bind.mp hrest with ⟨x, w₂, hnonce, hret⟩ | ⟨err, hnonce, rfl⟩
      · obtain ⟨rfl, -⟩ := hret
        obtain ⟨nonce, k, hfield, hk, hsame'⟩ := (solo_checkNonce hnonce).mp ⟨x, rfl⟩
        refine ⟨iff_of_true ⟨_, rfl⟩ ⟨a, _, e, m, k, nonce, hthree, hm, hsame, hfield, hk, hsame'⟩, ?_⟩
        intro user huser
        rw [← Except.ok.inj huser]
        rfl
      · refine ⟨iff_of_false (fun hok => ?_) ?_, fun user huser => ?_⟩
        · obtain ⟨user, huser⟩ := hok
          cases huser
        · rintro ⟨a', b', e', m', k, nonce, hthree', -, -, hfield, hk, hsame'⟩
          have harr := Json.arr.inj (hthree.symm.trans hthree')
          obtain ⟨-, hb, -⟩ : a = a' ∧ _ = b' ∧ e = e' := by simpa using harr
          obtain ⟨x, hx⟩ := (solo_checkNonce hnonce).mpr ⟨nonce, k, hfield, hb ▸ hk, hsame'⟩
          cases hx
        · cases huser
  · rcases solo_checkUser hfind hcheck with ⟨e', -, hdiffer⟩ | ⟨a, b, m, -, -, -, heq, -⟩
    · refine ⟨iff_of_false (fun hok => ?_) ?_, fun user huser => ?_⟩
      · obtain ⟨user, huser⟩ := hok
        cases huser
      · rintro ⟨a, b, e₁, m, k, nonce, hthree, hm, hsame, -⟩
        exact hdiffer a b m (threeSignals_eq_some.mpr ⟨e₁, hthree⟩) hm hsame
      · cases huser
    · cases heq

/-! ## The login of a registered phone -/

/-- No statement of the run takes metadata from a caller. -/
def sparesMetadataTest (_ : ℕ) (o : Op) (_ : Oracle) (_ : World) : Bool :=
  match o with
  | .pool (.insertUser _ _ _) | .query (.insertUser _ _ _) => false
  | .pool (.updateUser _ _ _ _) | .query (.updateUser _ _ _ _) => false
  | _ => true

theorem sparesMetadata_of_test (t : ℕ) (o : Op) (ω : Oracle) (w : World)
    (h : sparesMetadataTest t o ω w = true) : o.SparesMetadata := by
  cases o with
  | pool q =>
      cases q with
      | insertUser tenantId environment v => cases h
      | updateUser userId tenantId environment v => cases h
      | _ => trivial
  | query q =>
      cases q with
      | insertUser tenantId environment v => cases h
      | updateUser userId tenantId environment v => cases h
      | _ => trivial
  | _ => trivial

/-- A login with the DID that was registered. -/
def loginInput (s : RegistrationSession) : Pairing.SubmitInput :=
  { Pairing.submitWith none with
    tenantId := s.tenantId.text
    environment := s.environment
    did := sampleDid }

theorem login_of_registered_of_registering : ∃ (c : State) (s : RegistrationSession)
    (w : Pairing.World), s ∈ Db.sessions c.world.store.db ∧ s.commitment = some sampleCommitment ∧
      w.users = Db.users c.world.store.db ∧ ∃ text n userId, s.commitment = some text ∧
        parseCommitmentText text = some n ∧ s.tenantUserId = some userId ∧ ∀ pairing row,
          Surely (Alone jsonb) (identityChecks pairing (loginInput s) row) w fun out =>
            ((∃ user, out = .ok user) ↔
              Accepted settings pairing n row (loginInput s).publicSignals) ∧
              ∀ user, out = .ok user → user.id = userId := by
  have hrun : (((system settings jsonb).runChecked (System.onlyWhereTest sparesMetadataTest)
      (.init initial) registering).map fun c => (Db.sessions c.world.store.db).any fun s =>
        decide (s.state = .completed ∧ s.did = some sampleDid ∧
          s.commitment = some sampleCommitment)) = some true := by
    decide +kernel
  obtain ⟨c, hc, hregistered⟩ := Option.map_eq_some_iff.mp hrun
  obtain ⟨s, hs, hstate⟩ := List.any_eq_true.mp hregistered
  obtain ⟨hdone, hdid, hcommitment⟩ := of_decide_eq_true hstate
  have hreach : (system settings jsonb).Reach Empty MetadataSpared c :=
    System.Reach.runChecked (.init empty_initial)
      (fun _ _ h => System.onlyWhere_of_test sparesMetadata_of_test h) hc
  refine ⟨c, s, { Pairing.initial with users := Db.users c.world.store.db }, hs, hcommitment, rfl, ?_⟩
  exact login_of_registered hreach hs hdone rfl hdid (Uuid.parse_text s.tenantId) rfl

end ZeroAuth.Tenant
