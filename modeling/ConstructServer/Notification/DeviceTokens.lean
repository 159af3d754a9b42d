import ConstructServer.Library.Machine

/-!
# Push tokens of devices

`RegisterDeviceToken` files the push token of a phone. The table has two uniqueness rules, one token
per account and one row per device of an account, and an upsert can name only one of them: a
registration with a device id first deletes the rows of the account that hold the token for
something else, and then upserts by device; one without a device id upserts by token. No rule
compares accounts.
-/

namespace ConstructServer.Notification

open List Option

/-- A row of `device_tokens`: `κ` is the type of the token hashes and `χ` that of ciphertexts. -/
structure DeviceToken (κ χ : Type) where
  userId : String
  deviceTokenHash : κ
  deviceTokenEncrypted : χ
  deviceNameEncrypted : Option χ
  notificationFilter : String
  enabled : Bool
  deviceId : Option String
  pushProvider : String
  pushEnvironment : String

variable {κ χ : Type}

section

namespace DeviceToken

/-- `UNIQUE (user_id, device_token_hash)` -/
def SameToken (r r' : DeviceToken κ χ) : Prop :=
  r.userId = r'.userId ∧ r.deviceTokenHash = r'.deviceTokenHash

/-- `UNIQUE (user_id, device_id) WHERE device_id IS NOT NULL` -/
def SameDevice (r r' : DeviceToken κ χ) : Prop :=
  r.userId = r'.userId ∧ r.deviceId = r'.deviceId ∧ r.deviceId ≠ none

def Apart (r r' : DeviceToken κ χ) : Prop := ¬ SameToken r r' ∧ ¬ SameDevice r r'

instance [DecidableEq κ] (r r' : DeviceToken κ χ) : Decidable (SameToken r r') := inferInstanceAs (Decidable (_ ∧ _))
instance (r r' : DeviceToken κ χ) : Decidable (SameDevice r r') := inferInstanceAs (Decidable (_ ∧ _))
instance [DecidableEq κ] (r r' : DeviceToken κ χ) : Decidable (Apart r r') := inferInstanceAs (Decidable (_ ∧ _))

end DeviceToken

open DeviceToken

structure DeviceTokens (κ χ : Type) where
  rows : List (DeviceToken κ χ)
  unique : rows.Pairwise Apart

def upserted (conflict : DeviceToken κ χ → DeviceToken κ χ → Prop) [∀ r r', Decidable (conflict r r')]
    (update : DeviceToken κ χ → DeviceToken κ χ) (new : DeviceToken κ χ) (rows : List (DeviceToken κ χ)) :
    List (DeviceToken κ χ) :=
  if ∃ r ∈ rows, conflict new r then rows.map fun r => if conflict new r then update r else r
  else rows ++ [new]

/-- The `DO UPDATE` of a registration by device. -/
def byDevice (new r : DeviceToken κ χ) : DeviceToken κ χ :=
  { r with
    deviceTokenHash := new.deviceTokenHash, deviceTokenEncrypted := new.deviceTokenEncrypted
    deviceNameEncrypted := new.deviceNameEncrypted, notificationFilter := new.notificationFilter
    pushProvider := new.pushProvider, pushEnvironment := new.pushEnvironment, enabled := true }

/-- The `DO UPDATE` of a registration by token, which leaves the device and the ciphertext alone. -/
def byToken (new r : DeviceToken κ χ) : DeviceToken κ χ :=
  { r with
    deviceNameEncrypted := new.deviceNameEncrypted, notificationFilter := new.notificationFilter
    pushProvider := new.pushProvider, pushEnvironment := new.pushEnvironment, enabled := true }

variable {rows : List (DeviceToken κ χ)} {new : DeviceToken κ χ} {update : DeviceToken κ χ → DeviceToken κ χ}

theorem mem_upserted {conflict : DeviceToken κ χ → DeviceToken κ χ → Prop}
    [∀ r r', Decidable (conflict r r')]
    {r' : DeviceToken κ χ} (h : r' ∈ upserted conflict update new rows) :
    r' ∈ rows ∨ r' = new ∨ ∃ r ∈ rows, conflict new r ∧ r' = update r := by
  unfold upserted at h
  split_ifs at h with hc
  · obtain ⟨r, hr, rfl⟩ := mem_map.mp h
    split_ifs with hcr
    · exact .inr (.inr ⟨r, hr, hcr, rfl⟩)
    · exact .inl hr
  · rcases mem_append.mp h with h | h
    · exact .inl h
    · exact .inr (.inl (mem_singleton.mp h))

theorem exists_mem_upserted (conflict : DeviceToken κ χ → DeviceToken κ χ → Prop)
    [∀ r r', Decidable (conflict r r')]
    (update : DeviceToken κ χ → DeviceToken κ χ) (new : DeviceToken κ χ) (rows : List (DeviceToken κ χ)) :
    ∃ r' ∈ upserted conflict update new rows, r' = new ∨ ∃ r ∈ rows, conflict new r ∧ r' = update r := by
  unfold upserted
  split_ifs with hc
  · obtain ⟨r, hr, hcr⟩ := hc
    exact ⟨_, mem_map_of_mem hr, .inr ⟨r, hr, hcr, if_pos hcr⟩⟩
  · exact ⟨new, by simp, .inl rfl⟩

theorem apart_byToken [DecidableEq κ] (h : rows.Pairwise Apart) (hn : new.deviceId = none) :
    (upserted SameToken (byToken new) new rows).Pairwise Apart := by
  unfold upserted
  split_ifs with hc
  · rw [pairwise_map]
    refine h.imp fun hab => ?_
    split_ifs <;> exact hab
  · rw [pairwise_append]
    refine ⟨h, pairwise_singleton _ _, fun a ha b hb => ?_⟩
    obtain rfl := mem_singleton.mp hb
    exact ⟨fun hs => hc ⟨a, ha, hs.1.symm, hs.2.symm⟩, fun hs => hs.2.2 (hs.2.1.trans hn)⟩

theorem apart_byDevice (h : rows.Pairwise Apart) (hn : new.deviceId ≠ none)
    (hclaimed : ∀ r ∈ rows, SameToken new r → new.deviceId = r.deviceId) :
    (upserted SameDevice (byDevice new) new rows).Pairwise Apart := by
  -- a row of the user with the new token is the row that conflicts
  have hsame : ∀ r ∈ rows, new.userId = r.userId → new.deviceTokenHash = r.deviceTokenHash → SameDevice new r :=
    fun r hr hu ht => ⟨hu, hclaimed r hr ⟨hu, ht⟩, hn⟩
  unfold upserted
  split_ifs with hc
  · rw [pairwise_map]
    refine h.imp_of_mem fun {a b} ha hb hab => ?_
    split_ifs with hca hcb hcb
    · exact absurd ⟨hca.1.symm.trans hcb.1, hca.2.1.symm.trans hcb.2.1, hca.2.1 ▸ hn⟩ hab.2
    · exact ⟨fun hs => hcb (hsame b hb (hca.1.trans hs.1) hs.2), hab.2⟩
    · exact ⟨fun hs => hca (hsame a ha (hcb.1.trans hs.1.symm) hs.2.symm), hab.2⟩
    · exact hab
  · rw [pairwise_append]
    refine ⟨h, pairwise_singleton _ _, fun a ha b hb => ?_⟩
    obtain rfl := mem_singleton.mp hb
    refine ⟨fun hs => hc ⟨a, ha, hsame a ha hs.1.symm hs.2.symm⟩, fun hs => hc ⟨a, ha, ?_⟩⟩
    exact ⟨hs.1.symm, hs.2.1.symm, hn⟩

end

/-! ### The call -/

open DeviceToken Machine

variable [DecidableEq κ]

/-- Why a statement of the database failed. -/
inductive DbCause
  | uniqueViolation
  | unavailable
deriving DecidableEq

inductive RegisterError
  | validation (message : String)
  | encryption (error : String)
  | database (context : String) (cause : DbCause)
deriving DecidableEq

/-- Which statement of a registration the database fails, if any; a `COMMIT` may have been made when
its reply is lost. -/
inductive DbFault
  | none
  | begin
  | delete
  | insert
  | commit (lost : Bool)

/-- `DeviceTokenEncryption`: a hash and an encryption, which draws a nonce and can fail. -/
structure TokenEncryption (κ χ : Type) where
  hashToken : String → κ
  encrypt : Nat → String → Except String χ

structure RegisterDeviceTokenInput where
  userId : String
  deviceToken : String
  deviceName : Option String
  notificationFilter : Int
  deviceId : Option String
  pushProvider : String
  pushEnvironment : String

def notificationFilterToString (filter : Int) : String :=
  if filter = 0 then "silent"
  else if filter = 1 then "silent"
  else if filter = 2 then "visible_all"
  else if filter = 3 then "visible_dm"
  else if filter = 4 then "visible_mentions"
  else if filter = 5 then "visible_contacts"
  else "silent"

def isValidFilter (filter : String) : Bool :=
  filter ∈ ["silent", "visible_all", "visible_dm", "visible_mentions", "visible_contacts"]

/-- The row that a call is about to file, or why it is refused before the database is asked. -/
def prepare (e : TokenEncryption κ χ) (input : RegisterDeviceTokenInput) (nonce : Nat × Nat) :
    Except RegisterError (DeviceToken κ χ) :=
  let filter := notificationFilterToString input.notificationFilter
  let row (token : χ) (name : Option χ) : DeviceToken κ χ :=
    ⟨input.userId, e.hashToken input.deviceToken, token, name, filter, true, input.deviceId,
      input.pushProvider, input.pushEnvironment⟩
  if input.deviceToken.isEmpty ∨ 512 < input.deviceToken.utf8ByteSize then
    .error (.validation "Device token format is invalid")
  else if isValidFilter filter then
    match e.encrypt nonce.1 input.deviceToken, input.deviceName.map (e.encrypt nonce.2) with
    | .error err, _ | .ok _, some (.error err) => .error (.encryption err)
    | .ok token, none => .ok (row token none)
    | .ok token, some (.ok name) => .ok (row token (some name))
  else .error (.validation ("Invalid notification filter: " ++ filter))

/-- `DELETE … WHERE user_id = $1 AND device_token_hash = $2 AND device_id IS DISTINCT FROM $3` -/
def DeviceTokens.claim (db : DeviceTokens κ χ) (new : DeviceToken κ χ) : DeviceTokens κ χ where
  rows := db.rows.filter fun r => ¬ (SameToken new r ∧ r.deviceId ≠ new.deviceId)
  unique := db.unique.filter _

/-- `INSERT … ON CONFLICT … DO UPDATE`; a row that breaks a rule is refused. -/
def DeviceTokens.upsert (db : DeviceTokens κ χ) (conflict : DeviceToken κ χ → DeviceToken κ χ → Prop)
    [∀ r r', Decidable (conflict r r')] (update : DeviceToken κ χ → DeviceToken κ χ)
    (new : DeviceToken κ χ) :
    Except RegisterError (DeviceTokens κ χ) :=
  if h : (upserted conflict update new db.rows).Pairwise Apart then .ok ⟨_, h⟩
  else .error (.database "Failed to insert/update device token" .uniqueViolation)

def DeviceTokens.write (db : DeviceTokens κ χ) (new : DeviceToken κ χ) :
    Except RegisterError (DeviceTokens κ χ) :=
  if new.deviceId.isSome then (db.claim new).upsert SameDevice (byDevice new) new
  else db.upsert SameToken (byToken new) new

def DbFault.context : DbFault → Bool → String
  | .begin, true => "Failed to open device token registration transaction"
  | .delete, true => "Failed to clear stale rows holding this device token"
  | .commit _, true => "Failed to commit device token registration"
  | _, _ => "Failed to insert/update device token"

/-- The table after the statements, and their outcome: what does not commit leaves no trace. -/
def DeviceTokens.file (db : DeviceTokens κ χ) (new : DeviceToken κ χ) (fault : DbFault) :
    DeviceTokens κ χ × Except RegisterError Unit :=
  let failed := .error (.database (fault.context new.deviceId.isSome) .unavailable)
  match fault, db.write new with
  | .none, .ok db' => (db', .ok ())
  | .commit true, .ok db' => (db', failed)
  | .none, .error err | .commit _, .error err => (db, .error err)
  | _, _ => (db, failed)

/-- A call with what the encryption draws and what the database fails. -/
structure RegisterCall where
  input : RegisterDeviceTokenInput
  nonce : Nat × Nat
  fault : DbFault

/-- The call: the table after it, and its answer with the hash it returns as the id of the token. -/
def registerDeviceToken (e : TokenEncryption κ χ) (db : DeviceTokens κ χ) (call : RegisterCall) :
    DeviceTokens κ χ × Except RegisterError κ :=
  match prepare e call.input call.nonce with
  | .error err => (db, .error err)
  | .ok new =>
    let (db', answer) := db.file new call.fault
    (db', answer.map fun _ => new.deviceTokenHash)

structure Registry (κ χ : Type) where
  db : DeviceTokens κ χ
  last : Option (RegisterCall × Except RegisterError κ)

def Registry.empty : Registry κ χ := ⟨⟨[], .nil⟩, none⟩

def Registry.step (e : TokenEncryption κ χ) (s : Registry κ χ) (call : RegisterCall) :
    Option (Registry κ χ) :=
  let (db, answer) := registerDeviceToken e s.db call
  some ⟨db, some (call, answer)⟩

/-! ### No conflict, and one row for each token -/

section

variable {e : TokenEncryption κ χ} {db db' : DeviceTokens κ χ} {new : DeviceToken κ χ}

theorem exists_write (db : DeviceTokens κ χ) (new : DeviceToken κ χ) : ∃ db', db.write new = .ok db' := by
  unfold DeviceTokens.write DeviceTokens.upsert
  split_ifs with hd h h
  · exact ⟨_, rfl⟩
  · refine absurd (apart_byDevice (db.claim new).unique (Option.isSome_iff_ne_none.mp hd) ?_) h
    intro r hr hs
    have hk := of_decide_eq_true (mem_filter.mp hr).2
    by_contra hne
    exact hk ⟨hs, Ne.symm hne⟩
  · exact ⟨_, rfl⟩
  · exact absurd (apart_byToken db.unique (Option.not_isSome_iff_eq_none.mp hd)) h

theorem rows_of_write (h : db.write new = .ok db') :
    (∃ r ∈ db'.rows, r.userId = new.userId ∧ r.deviceTokenHash = new.deviceTokenHash ∧
      (new.deviceId = none ∨ r.deviceId = new.deviceId)) ∧
    ∀ r' ∈ db'.rows, (r'.userId = new.userId ∧ r'.deviceTokenHash = new.deviceTokenHash) ∨
      ∃ r ∈ db.rows, r.userId = r'.userId ∧ r.deviceTokenHash = r'.deviceTokenHash := by
  unfold DeviceTokens.write DeviceTokens.upsert at h
  split_ifs at h with hd
  all_goals
    obtain rfl := Except.ok.inj h
    refine ⟨?_, fun r' hr' => ?_⟩
  · obtain ⟨r', hr', rfl | ⟨r, _, hc, rfl⟩⟩ := exists_mem_upserted SameDevice (byDevice new) new (db.claim new).rows
    · exact ⟨_, hr', rfl, rfl, .inr rfl⟩
    · exact ⟨_, hr', hc.1.symm, rfl, .inr hc.2.1.symm⟩
  · rcases mem_upserted hr' with hr | rfl | ⟨r, _, hc, rfl⟩
    · exact .inr ⟨r', mem_of_mem_filter hr, rfl, rfl⟩
    · exact .inl ⟨rfl, rfl⟩
    · exact .inl ⟨hc.1.symm, rfl⟩
  · have hn := Option.not_isSome_iff_eq_none.mp hd
    obtain ⟨r', hr', rfl | ⟨r, _, hc, rfl⟩⟩ := exists_mem_upserted SameToken (byToken new) new db.rows
    · exact ⟨_, hr', rfl, rfl, .inl hn⟩
    · exact ⟨_, hr', hc.1.symm, hc.2.symm, .inl hn⟩
  · rcases mem_upserted hr' with hr | rfl | ⟨r, hr, _, rfl⟩
    · exact .inr ⟨r', hr, rfl, rfl⟩
    · exact .inl ⟨rfl, rfl⟩
    · exact .inr ⟨r, hr, rfl, rfl⟩

omit [DecidableEq κ] in
theorem prepare_cases (e : TokenEncryption κ χ) (input : RegisterDeviceTokenInput) (nonce : Nat × Nat) :
    (∃ new, prepare e input nonce = .ok new ∧ new.userId = input.userId ∧
      new.deviceTokenHash = e.hashToken input.deviceToken ∧ new.deviceId = input.deviceId) ∨
    ∃ err, prepare e input nonce = .error err ∧ ∀ c, err ≠ .database c .uniqueViolation := by
  simp only [prepare]
  split_ifs
  · exact .inr ⟨_, rfl, by simp⟩
  · split
    · exact .inr ⟨_, rfl, by simp⟩
    · exact .inr ⟨_, rfl, by simp⟩
    · exact .inl ⟨_, rfl, rfl, rfl, rfl⟩
    · exact .inl ⟨_, rfl, rfl, rfl, rfl⟩
  · exact .inr ⟨_, rfl, by simp⟩

theorem registerDeviceToken_cases (e : TokenEncryption κ χ) (db : DeviceTokens κ χ) (call : RegisterCall) :
    (∃ new, db.write new = .ok (registerDeviceToken e db call).1 ∧ new.userId = call.input.userId ∧
      new.deviceTokenHash = e.hashToken call.input.deviceToken ∧ new.deviceId = call.input.deviceId ∧
      ∀ c, (registerDeviceToken e db call).2 ≠ .error (.database c .uniqueViolation)) ∨
    (registerDeviceToken e db call).1 = db ∧
      ∃ err, (registerDeviceToken e db call).2 = .error err ∧ ∀ c, err ≠ .database c .uniqueViolation := by
  unfold registerDeviceToken
  obtain ⟨new, hp, hu, ht, hd⟩ | ⟨err, hp, herr⟩ := prepare_cases e call.input call.nonce
  · obtain ⟨db', hw⟩ := exists_write db new
    simp only [hp, DeviceTokens.file, hw]
    match call.fault with
    | .none => exact .inl ⟨new, hw, hu, ht, hd, by simp [Except.map]⟩
    | .commit true => exact .inl ⟨new, hw, hu, ht, hd, by simp [Except.map]⟩
    | .commit false | .begin | .delete | .insert => exact .inr ⟨rfl, _, rfl, by simp⟩
  · rw [hp]
    exact .inr ⟨rfl, err, rfl, herr⟩

structure Registry.Settled (e : TokenEncryption κ χ) (s : Registry κ χ) : Prop where
  token : s.db.rows.Pairwise fun r r' => r.deviceTokenHash ≠ r'.deviceTokenHash
  device : s.db.rows.Pairwise fun r r' => ¬ SameDevice r r'
  filed : ∀ call id, s.last = some (call, .ok id) → ∃ r ∈ s.db.rows, r.userId = call.input.userId ∧
    r.deviceTokenHash = e.hashToken call.input.deviceToken ∧
    (call.input.deviceId = none ∨ r.deviceId = call.input.deviceId)
  conflict : ∀ call context, s.last ≠ some (call, .error (.database context .uniqueViolation))

def NoOtherAccount (e : TokenEncryption κ χ) (s : Registry κ χ) (call : RegisterCall) : Prop :=
  ∀ r ∈ s.db.rows, r.deviceTokenHash = e.hashToken call.input.deviceToken → r.userId = call.input.userId

instance (s : Registry κ χ) (call : RegisterCall) : Decidable (NoOtherAccount e s call) :=
  inferInstanceAs (Decidable (∀ r ∈ s.db.rows, _ → _))

def OneAccount (db : DeviceTokens κ χ) : Prop :=
  ∀ r ∈ db.rows, ∀ r' ∈ db.rows, r.deviceTokenHash = r'.deviceTokenHash → r.userId = r'.userId

omit [DecidableEq κ] in
theorem OneAccount.token (h : OneAccount db) : db.rows.Pairwise fun r r' => r.deviceTokenHash ≠ r'.deviceTokenHash :=
  db.unique.imp_of_mem fun ha hb hab ht => hab.1 ⟨h _ ha _ hb ht, ht⟩

theorem OneAccount.write (h : OneAccount db) (hw : db.write new = .ok db')
    (hno : ∀ r ∈ db.rows, r.deviceTokenHash = new.deviceTokenHash → r.userId = new.userId) : OneAccount db' := by
  intro a ha b hb hab
  rcases (rows_of_write hw).2 a ha with ⟨hua, hta⟩ | ⟨a', ha', hua, hta⟩ <;>
    rcases (rows_of_write hw).2 b hb with ⟨hub, htb⟩ | ⟨b', hb', hub, htb⟩
  · rw [hua, hub]
  · rw [hua, ← hub, hno b' hb' (by rw [htb, ← hab, hta])]
  · rw [hub, ← hua, hno a' ha' (by rw [hta, hab, htb])]
  · rw [← hua, ← hub]
    exact h a' ha' b' hb' (by rw [hta, htb, hab])

theorem settled_step {s t : Registry κ χ} {call : RegisterCall} (h : OneAccount s.db)
    (hno : NoOtherAccount e s call) (hst : s.step e call = some t) : OneAccount t.db ∧ t.Settled e := by
  have hs : t = ⟨(registerDeviceToken e s.db call).1, some (call, (registerDeviceToken e s.db call).2)⟩ :=
    (some.inj hst).symm
  subst hs
  obtain ⟨new, hw, hu, ht, hd, hc⟩ | ⟨hdb, err, herr, hc⟩ := registerDeviceToken_cases e s.db call
  · have hone := h.write hw (by rwa [hu, ht])
    refine ⟨hone, hone.token, DeviceTokens.unique _ |>.imp And.right, fun c id hl => ?_, fun c k hl => ?_⟩
    · obtain ⟨rfl, -⟩ := Prod.mk.inj (some.inj hl)
      rw [← hu, ← ht, ← hd]
      exact (rows_of_write hw).1
    · exact hc k (Prod.mk.inj (some.inj hl)).2
  · rw [hdb, herr]
    refine ⟨h, h.token, s.db.unique.imp And.right, fun c id hl => ?_, fun c k hl => ?_⟩
    · cases (Prod.mk.inj (some.inj hl)).2
    · exact hc k (Except.error.inj (Prod.mk.inj (some.inj hl)).2)

/-- **As long as no call names a token that another account holds, a token has one row** and a
device of an account has one, and no call fails for a uniqueness rule. -/
theorem tokens_belong_to_one_device {calls : List RegisterCall} {s : Registry κ χ}
    (hno : Along (Registry.step e) (NoOtherAccount e) .empty calls)
    (hrun : run (Registry.step e) .empty calls = some s) : s.Settled e := by
  refine (run_invariant (P := fun s => OneAccount s.db ∧ s.Settled e) (fun h hg hst => ?_) ?_ hno hrun).2
  · exact settled_step h.1 hg hst
  · exact ⟨by simp [OneAccount, Registry.empty], .nil, .nil, nofun, nofun⟩

end

section

def plainTokens : TokenEncryption String String := ⟨id, fun _ => .ok⟩

def signIn (user : String) (device : Option String) : RegisterCall :=
  ⟨⟨user, "t", none, 2, device, "apns", "production"⟩, (0, 1), .none⟩

/-- A token that was registered without a device id is claimed by one device and then by another. -/
theorem tokens_belong_to_one_device_demo : ∃ s, run (Registry.step plainTokens) .empty
        [signIn "u" none, signIn "u" (some "d"), signIn "u" (some "d'")] = some s ∧
      s.db.rows.map DeviceToken.deviceId = [some "d'"] ∧ s.Settled plainTokens :=
  reaches_with (by decide +kernel) fun _ hrun _ => tokens_belong_to_one_device (by decide +kernel) hrun

/-- **A phone that signs in to a second account leaves its token with the first**: both
registrations are answered Ok and both rows are enabled. -/
theorem second_account_shares_the_token :
    ∃ s, run (Registry.step plainTokens) .empty [signIn "u" (some "d"), signIn "v" (some "d")] = some s ∧
      s.last.map Prod.snd = some (.ok "t") ∧
      s.db.rows.map (fun r => (r.userId, r.deviceTokenHash, r.enabled)) = [("u", "t", true), ("v", "t", true)] :=
  reaches _ _ _ _ (by decide +kernel)

end

end ConstructServer.Notification
