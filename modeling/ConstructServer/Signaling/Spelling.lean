import ConstructServer.Signaling.Service

/-!
# Spellings of the callee

A new call names its callee by a text. The contact and block checks parse it; the limits of the
pair, the busy check, the presence lookup and the stored call use it as it is written. A UUID has
many spellings, and each of them has limits of its own.
-/

namespace ConstructServer.Signaling

open Calls Redis Keyspace

/-! ### The gates -/

structure CallLimiter where
  /-- The HMAC of the text under the salt, in base64. -/
  peerBucket : String → String
  callMax : Nat
  callWindowSecs : Nat
  peerMax : Nat
  peerWindowSecs : Nat
  declineCooldownSecs : Nat

/-- The limits let a call pass, and Redis takes their windows. -/
structure CallLimiter.Open (L : CallLimiter) : Prop where
  call : 0 < L.callMax
  peer : 0 < L.peerMax
  callWindow : L.callWindowSecs * 1000 ≤ Keyspace.maxDeadline
  peerWindow : L.peerWindowSecs * 1000 ≤ Keyspace.maxDeadline

/-- What the contact and block checks find in the database. -/
structure Relations where
  mutualContacts : Uuid → Uuid → Bool
  blocked : Uuid → Uuid → Bool

/-- The registry, and the keys of the limits. -/
structure Admission (ι : Type) where
  sig : SigState ι
  counters : Keyspace Nat
  cooldowns : Keyspace Unit

def callRateKey (userId : String) : String := "ratelimit:calls:" ++ userId

def peerRateKey (L : CallLimiter) (userId peerId : String) : String :=
  "ratelimit:calls:" ++ userId ++ ":" ++ L.peerBucket peerId

def declineKey (L : CallLimiter) (userId peerId : String) : String :=
  "ratelimit:decline_cooldown:" ++ userId ++ ":" ++ L.peerBucket peerId

def incrExpire (ks : Keyspace Nat) (now : Nat) (k : String) (secs : Nat) :
    Keyspace Nat × Option Nat :=
  let n := (ks.get now k).getD 0 + 1
  if n = 1 then
    ((ks.incr now k).expire now k secs).elim (ks.incr now k, none) fun ks' => (ks', some n)
  else (ks.incr now k, some n)

namespace Admission

variable {ι : Type}

def charge (s : Admission ι) (k : String) (max secs : Nat) : Option Bool × Admission ι :=
  let (counters, count) := incrExpire s.counters s.sig.now k secs
  (count.map (decide <| · ≤ max), { s with counters })

variable (D : Relations) (L : CallLimiter)

/-- The answer of a gate: the database has the accounts under their UUIDs, the limits have keys
made of the texts. -/
def gate (gate : Gate) (callerId calleeId : String) (s : Admission ι) :
    Option Bool × Admission ι :=
  match gate with
  | .mutualContacts => ((Uuid.parseStr callerId).bind fun caller =>
      (Uuid.parseStr calleeId).map fun callee => D.mutualContacts caller callee, s)
  | .blocked => ((Uuid.parseStr callerId).bind fun caller =>
      (Uuid.parseStr calleeId).map fun callee => D.blocked callee caller, s)
  | .callRate => s.charge (callRateKey callerId) L.callMax L.callWindowSecs
  | .peerRate => s.charge (peerRateKey L callerId calleeId) L.peerMax L.peerWindowSecs
  | .declineCooldown =>
    (some (s.cooldowns.get s.sig.now (declineKey L callerId calleeId)).isNone, s)

def setDeclineCooldown (callerId calleeId : String) (s : Admission ι) : Admission ι :=
  { s with cooldowns := (s.cooldowns.setEx s.sig.now (declineKey L callerId calleeId) ()
      L.declineCooldownSecs).getD s.cooldowns }

variable [DecidableEq ι]

/-- The statements of the service where Redis answers. -/
def exec (q : SigStatement ι) (input : Input (SigPick ι)) (s : Admission ι) :
    Option (q.Answer × Admission ι) :=
  match q with
  | .redis (.gate gate callerId calleeId) => some (s.gate D L gate callerId calleeId)
  | .redis (.setDeclineCooldown callerId calleeId) =>
    some (some (), s.setDeclineCooldown L callerId calleeId)
  | q => if input.outcome = .ok then (s.sig.exec q input).map fun (r, sig) => (r, { s with sig })
    else none

end Admission

/-! ### What is recorded under a text -/

section

variable {ι : Type} (L : CallLimiter) (caller text : String) (s : Admission ι)

def Declined : Prop := (s.cooldowns.get s.sig.now (declineKey L caller text)).isSome

def PeerFull : Prop := ∃ n, s.counters.get s.sig.now (peerRateKey L caller text) = some n ∧ L.peerMax ≤ n

/-- The instance has the user in a call, or Redis has where the instance has nothing, and the call
is there. -/
def Busy (i : ι) : Prop :=
  ∃ callId, ((s.sig.memory i).activeCalls text).or (s.sig.pointers.get s.sig.now (activeCallKey text)) =
    some callId ∧ (s.sig.hashes.get s.sig.now (callKey callId)).isSome

variable [DecidableEq ι]

def Online : Prop := ∃ d ∈ s.sig.onlineDevices text, d.1 ≠ ""

end

/-! ### Admission -/

section Admission

variable {ι : Type} [DecidableEq ι] {D : Relations} {L : CallLimiter} {s s' : Admission ι}
  {i : ι} {req : InitiateCall}

theorem runs_then_ok {E α β : Type} {p : ExceptT E (Program (SigStatement ι) SigStatement.Answer) α}
    {f : α → ExceptT E (Program (SigStatement ι) SigStatement.Answer) β} {b : β} :
    Runs (Admission.exec D L) (p >>= f).run s (.ok b) s' ↔ ∃ a s₁,
      Runs (Admission.exec D L) p.run s (.ok a) s₁ ∧ Runs (Admission.exec D L) (f a).run s₁ (.ok b) s' := by
  rw [runs_andThen]
  constructor
  · rintro (h | ⟨e, he, -⟩)
    · exact h
    · cases he
  · exact .inl

variable {u : Unit} {gate : Gate} {callerId calleeId : String}

theorem runs_refuseIf {c : Prop} [Decidable c] {status : Status} :
    Runs (Admission.exec D L) (refuseIf c status).run s (.ok u) s' ↔ ¬c ∧ s' = s := by
  unfold refuseIf
  split
  · next hc => exact ⟨fun h => (by cases h.1), fun h => absurd hc h.1⟩
  · next hc => exact ⟨fun h => ⟨hc, h.2⟩, fun h => ⟨rfl, h.2⟩⟩

theorem runs_passGate {wanted : Bool} {status : Status} :
    Runs (Admission.exec D L) (passGate gate wanted callerId calleeId status).run s (.ok u) s' ↔
      s.gate D L gate callerId calleeId = (some wanted, s') := by
  have hrest : ∀ {r : Option Bool} {t : Admission ι}, Runs (Admission.exec D L)
      (if r = some wanted then pure () else throw status : ExceptT Status (Program _ _) Unit).run t
        (.ok u) s' ↔ r = some wanted ∧ s' = t := by
    intro r t
    split
    · next hr => exact ⟨fun h => ⟨hr, h.2⟩, fun h => ⟨rfl, h.2⟩⟩
    · next hr => exact ⟨fun h => (by cases h.1), fun h => absurd h.1 hr⟩
  constructor
  · rintro ⟨input, r, s₁, he, h⟩
    obtain ⟨rfl, rfl⟩ := hrest.mp h
    exact Option.some.inj he
  · intro h
    exact ⟨⟨.ok, .none⟩, some wanted, s', congrArg some h, hrest.mpr ⟨rfl, rfl⟩⟩

theorem runs_passLimit {message : String} :
    Runs (Admission.exec D L) (passLimit gate callerId calleeId message).run s (.ok u) s' ↔
      s.gate D L gate callerId calleeId = (some true, s') := by
  constructor
  · rintro ⟨input, r, s₁, he, h⟩
    refine (Option.some.inj he : s.gate D L gate callerId calleeId = (r, s₁)).trans ?_
    match r with
    | none | some false => cases h.1
    | some true => rw [h.2]
  · intro h
    exact ⟨⟨.ok, .none⟩, some true, s', congrArg some h, rfl, rfl⟩

omit [DecidableEq ι] in
theorem eq_of_gate {r : Option Bool} (hc : gate ≠ .callRate) (hp : gate ≠ .peerRate)
    (h : s.gate D L gate callerId calleeId = (r, s')) : s' = s := by
  cases gate with
  | callRate => exact absurd rfl hc
  | peerRate => exact absurd rfl hp
  | _ => exact (congrArg Prod.snd h).symm

theorem runs_admitCall : Runs (Admission.exec D L) (admitCall true req).run s (.ok ()) s' ↔
      ¬(req.callId = "" ∨ req.calleeUserId = "") ∧
      ¬((Uuid.parseStr req.callerId).isNone ∨ (Uuid.parseStr req.calleeUserId).isNone) ∧
      s.gate D L .mutualContacts req.callerId req.calleeUserId = (some true, s) ∧
      s.gate D L .blocked req.callerId req.calleeUserId = (some false, s) ∧ ∃ s₁,
        s.gate D L .callRate req.callerId req.calleeUserId = (some true, s₁) ∧
        s₁.gate D L .peerRate req.callerId req.calleeUserId = (some true, s') ∧
        ¬Declined L req.callerId req.calleeUserId s' := by
  unfold admitCall
  simp only [runs_then_ok, runs_refuseIf, runs_passGate, runs_passLimit]
  constructor
  · rintro ⟨-, _, ⟨hn, rfl⟩, -, _, ⟨-, rfl⟩, -, _, ⟨hp, rfl⟩, -, _, hm, -, _, hb, -, s₁, hc, -, s₂, hpe, hd⟩
    obtain rfl := eq_of_gate (by simp) (by simp) hm
    obtain rfl := eq_of_gate (by simp) (by simp) hb
    obtain rfl := eq_of_gate (by simp) (by simp) hd
    refine ⟨hn, hp, hm, hb, s₁, hc, hpe, ?_⟩
    simpa [Declined, Admission.gate] using hd
  · rintro ⟨hn, hp, hm, hb, s₁, hc, hpe, hd⟩
    refine ⟨(), s, ⟨hn, rfl⟩, (), s, ⟨by simp, rfl⟩, (), s, ⟨hp, rfl⟩, (), s, hm, (), s, hb, (), s₁, hc, (), s', hpe, ?_⟩
    simpa [Declined, Admission.gate] using hd

end Admission

section

variable {ι : Type} {L : CallLimiter} {s : Admission ι} {ks : Keyspace Nat} {now secs max : Nat}
  {k k' : String}

theorem incrExpire_apply_of_ne (h : k' ≠ k) : (incrExpire ks now k secs).1 k' = ks k' := by
  simp only [incrExpire]
  split_ifs
  · cases he : (ks.incr now k).expire now k secs with
    | none => exact incr_apply_of_ne h
    | some ks' => exact (expire_apply_of_ne he h).trans (incr_apply_of_ne h)
  · exact incr_apply_of_ne h

theorem eq_of_count {n : Nat} (h : (incrExpire ks now k secs).2 = some n) :
    n = (ks.get now k).getD 0 + 1 := by
  simp only [incrExpire] at h
  split_ifs at h
  · cases he : (ks.incr now k).expire now k secs with
    | none => rw [he] at h; cases h
    | some ks' => rw [he] at h; exact (Option.some.inj h).symm
  · exact (Option.some.inj h).symm

theorem charge_of_full {n : Nat} (hn : s.counters.get s.sig.now k = some n) (hm : max ≤ n) :
    (s.charge k max secs).1 ≠ some true := by
  intro h
  obtain ⟨count, hc, hle⟩ := Option.map_eq_some_iff.mp h
  have := eq_of_count hc
  rw [hn, Option.getD_some] at this
  have := of_decide_eq_true hle
  omega

theorem charge_of_fresh (hn : s.counters.get s.sig.now k = none) (hm : 0 < max)
    (hw : s.sig.now + secs * 1000 ≤ Keyspace.maxDeadline) : (s.charge k max secs).1 = some true := by
  have he : (s.counters.incr s.sig.now k).expire s.sig.now k secs ≠ none := fun h =>
    (expire_eq_none_iff.mp h).not_ge hw
  obtain ⟨ks', he⟩ := Option.ne_none_iff_exists'.mp he
  simp only [Admission.charge, incrExpire, hn, Option.getD_none, Nat.zero_add, if_true, he,
    Option.elim_some, Option.map_some, Option.some.injEq, decide_eq_true_eq]
  exact hm

variable {caller a b : String}

theorem peerRateKey_inj :
    peerRateKey L caller a = peerRateKey L caller b ↔ L.peerBucket a = L.peerBucket b :=
  String.append_right_inj _

theorem declineKey_inj :
    declineKey L caller a = declineKey L caller b ↔ L.peerBucket a = L.peerBucket b :=
  String.append_right_inj _

theorem append_colon_ne : a ++ ":" ++ b ≠ a := by
  intro h
  rw [String.append_assoc] at h
  have hempty := (String.append_right_inj _).mp (h.trans String.append_empty.symm)
  simp at hempty

theorem peerRateKey_ne : peerRateKey L caller a ≠ callRateKey caller := append_colon_ne

theorem activeCallKey_inj : activeCallKey a = activeCallKey b ↔ a = b :=
  (String.append_left_inj _).trans (String.append_right_inj _)

end

/-! ### The registry -/

section

variable {ι : Type} [DecidableEq ι] {D : Relations} {L : CallLimiter} {s s' : Admission ι}
  {i : ι} {req : InitiateCall} {user : String}

def Checks : SigStatement ι → Prop
  | .map _ (.getActive _) | .map _ (.insertActive ..) | .map _ (.removeCall _)
  | .map _ (.removeActive _) | .redis (.existsCall _) | .redis (.getPointer _)
  | .redis (.delCall _) | .redis (.delPointer _) | .redis (.srem _) => True
  | _ => False

theorem online_of_exec {q : SigStatement ι} {input : Input (SigPick ι)} {r : q.Answer}
    (hq : Checks q) (h : Admission.exec D L q input s = some (r, s')) :
    s'.sig.online = s.sig.online ∧ s'.sig.now = s.sig.now := by
  cases q with
  | clock | unregister => exact hq.elim
  | map j access =>
    cases access <;> first
      | exact hq.elim
      | simp only [Admission.exec, SigState.exec, MapAccess.effect] at h
        split_ifs at h
        cases h
        exact ⟨rfl, rfl⟩
  | redis command =>
    cases command <;> first
      | exact hq.elim
      | simp only [Admission.exec, SigState.exec] at h
        split_ifs at h with hok
        simp only [fallible, hok, RedisCommand.effect] at h
        cases h
        exact ⟨rfl, rfl⟩

omit [DecidableEq ι] in
theorem checks_removeCall {callId : String} : (removeCall i callId).Asks Checks := by
  refine asks_map trivial fun state => ?_
  cases state with
  | none => trivial
  | some state =>
    exact asks_map trivial fun _ => asks_pipe_then trivial <| asks_pipe_then trivial <|
      asks_pipe_then trivial <| asks_pipe trivial

theorem runs_read {α : Type} {a : α} {q : SigStatement ι} {r : q.Answer} {f : q.Answer → Sig ι α}
    (hq : ∀ input, Admission.exec D L q input s = if input.outcome = .ok then some (r, s) else none)
    (h : Runs (Admission.exec D L) (.ask q f) s a s') : Runs (Admission.exec D L) (f r) s a s' := by
  obtain ⟨input, r', s₁, he, h⟩ := h
  rw [hq] at he
  split_ifs at he
  cases he
  exact h

theorem exec_existsCall {callId : String} (input : Input (SigPick ι)) :
    Admission.exec D L (.redis (.existsCall callId)) input s = if input.outcome = .ok then
      some (some (s.sig.hashes.get s.sig.now (callKey callId)).isSome, s) else none := by
  simp only [Admission.exec, SigState.exec]
  split_ifs with hok
  · simp only [fallible, hok]
    rfl
  · rfl

theorem exec_getPointer (input : Input (SigPick ι)) :
    Admission.exec D L (.redis (.getPointer user)) input s = if input.outcome = .ok then
      some (some (s.sig.pointers.get s.sig.now (activeCallKey user)), s) else none := by
  simp only [Admission.exec, SigState.exec]
  split_ifs with hok
  · simp only [fallible, hok]
    rfl
  · rfl

theorem runs_callExistsInRedis {callId : String} {found : Bool}
    (h : Runs (Admission.exec D L) (callExistsInRedis callId) s found s') :
    found = (s.sig.hashes.get s.sig.now (callKey callId)).isSome ∧ s' = s :=
  runs_read exec_existsCall h

theorem runs_getUserCall {found : Option String}
    (h : Runs (Admission.exec D L) (getUserCall i user) s found s') :
    found.isSome = true ↔ Busy user s i := by
  replace h := runs_read (r := (s.sig.memory i).activeCalls user) (fun _ => rfl) h
  unfold Busy
  cases hact : (s.sig.memory i).activeCalls user with
  | some callId =>
    rw [hact] at h
    change Runs _ (callExistsInRedis callId >>= fun found => if found then pure (some callId) else
      removeCall i callId >>= fun _ => pure none) s found s' at h
    obtain ⟨there, s₁, hex, h⟩ := runs_bind.mp h
    obtain ⟨rfl, rfl⟩ := runs_callExistsInRedis hex
    split at h
    · next hth =>
      rw [h.1]
      simp [hth]
    · next hth =>
      obtain ⟨-, s₂, -, h⟩ := runs_bind.mp h
      rw [h.1]
      simp [hth]
  | none =>
    rw [hact] at h
    replace h := runs_read (q := .redis (.getPointer user)) (r := some (s.sig.pointers.get s.sig.now (activeCallKey user)))
      exec_getPointer h
    cases hpo : s.sig.pointers.get s.sig.now (activeCallKey user) with
    | none =>
      rw [hpo] at h
      rw [h.1]
      simp
    | some callId =>
      rw [hpo] at h
      change Runs _ (callExistsInRedis callId >>= fun found => if found then
        map i (.insertActive [user] callId) >>= fun _ => pure (some callId)
        else pipe (.delPointer user) >>= fun _ => pure none) s found s' at h
      obtain ⟨there, s₁, hex, h⟩ := runs_bind.mp h
      obtain ⟨rfl, rfl⟩ := runs_callExistsInRedis hex
      split at h
      · next hth =>
        obtain ⟨-, s₂, -, h⟩ := runs_bind.mp h
        rw [h.1]
        simp [hth]
      · next hth =>
        obtain ⟨-, s₂, -, h⟩ := runs_bind.mp h
        rw [h.1]
        simp [hth]

omit [DecidableEq ι] in
theorem checks_getUserCall : (getUserCall i user).Asks Checks := by
  refine asks_map trivial fun active => ?_
  cases active with
  | some callId =>
    refine asks_redis trivial fun found => ?_
    change Program.Asks _ (if found.getD false then _ else _)
    split
    · trivial
    · exact Program.asks_bind checks_removeCall fun _ => trivial
  | none =>
    refine asks_redis trivial fun pointer => ?_
    cases pointer.join with
    | none => trivial
    | some callId =>
      refine asks_redis trivial fun found => ?_
      change Program.Asks _ (if found.getD false then _ else _)
      split
      · exact asks_map trivial fun _ => trivial
      · exact asks_pipe_then trivial trivial

theorem runs_isUserBusy {busy : Bool} (h : Runs (Admission.exec D L) (isUserBusy i user) s busy s') :
    (busy = true ↔ Busy user s i) ∧ s'.sig.online = s.sig.online ∧ s'.sig.now = s.sig.now := by
  obtain ⟨found, s₁, hfound, rfl, rfl⟩ := runs_bind.mp h
  refine ⟨runs_getUserCall hfound, runs_keeps (K := fun t => t.sig.online = s.sig.online ∧
    t.sig.now = s.sig.now) checks_getUserCall (fun hq hK he => ?_) ⟨rfl, rfl⟩ hfound⟩
  obtain ⟨ho, hn⟩ := online_of_exec hq he
  exact ⟨ho.trans hK.1, hn.trans hK.2⟩

theorem runs_listOnlineDevices {devices : List (String × ι)}
    (h : Runs (Admission.exec D L) (listOnlineDevices user) s devices s') :
    devices ≠ [] ↔ Online user s := by
  obtain ⟨input, r, s₁, he, rfl, -⟩ := h
  simp only [Admission.exec, SigState.exec] at he
  split_ifs at he with hok
  obtain ⟨⟨r', sig⟩, hex, heq⟩ := Option.map_eq_some_iff.mp he
  obtain ⟨order, rfl, hef⟩ := reply_of_ok hok hex
  obtain rfl : r = some order := (congrArg Prod.fst heq).symm
  have hperm : order.Perm (s.sig.onlineDevices user) := by
    cases hch : input.choice with
    | devices picked =>
      rw [hch] at hef
      simp only [RedisCommand.effect] at hef
      split_ifs at hef with hp
      cases hef
      exact hp
    | _ =>
      rw [hch] at hef
      cases hef
  simp only [Online, Option.getD_some, ne_eq, List.filter_eq_nil_iff, not_forall, decide_not,
    Bool.not_eq_true', decide_eq_false_iff_not, not_not, hperm.mem_iff, exists_prop]

/-- **A call that has passed the checks is refused exactly if the text of its callee is busy**, and
is answered with whether a device is online under it. -/
theorem runs_registerCall {x : Except Status Bool}
    (h : Runs (Admission.exec D L) (registerCall i req) s x s') :
    Busy req.calleeUserId s i ∧ (∃ e, x = .error e) ∨ ¬Busy req.calleeUserId s i ∧
      ∃ online, x = .ok online ∧ (online = true ↔ Online req.calleeUserId s) := by
  obtain ⟨busy, s₁, hbusy, h⟩ := runs_bind.mp h
  obtain ⟨hiff, ho, hn⟩ := runs_isUserBusy hbusy
  split at h
  · next hb => exact .inl ⟨hiff.mp hb, _, h.1⟩
  · next hb =>
    refine .inr ⟨fun hB => hb (hiff.mpr hB), ?_⟩
    obtain ⟨devices, s₂, hdev, h⟩ := runs_bind.mp h
    have hdev := runs_listOnlineDevices hdev
    have hsame : Online req.calleeUserId s₁ ↔ Online req.calleeUserId s := by
      rw [Online, SigState.onlineDevices, ho, hn]
      rfl
    rw [hsame] at hdev
    obtain ⟨offeredAtMs, s₃, -, h⟩ := runs_bind.mp h
    obtain ⟨-, s₄, -, h⟩ := runs_bind.mp h
    obtain ⟨-, s₅, -, h⟩ := runs_bind.mp h
    split at h
    · next hnil => exact ⟨false, h.1, by simp [← hdev, hnil]⟩
    · next hnil =>
      obtain ⟨-, s₆, -, h⟩ := runs_bind.mp h
      exact ⟨true, h.1, by simp [← hdev, hnil]⟩

/-! ### Runs exist -/

theorem exists_mapEffect (access : MapAccess) (t : SigState ι) :
    ∃ pick x t', access.effect i pick t = some (x, t') := by
  cases access with
  | sendLocal userId deviceId signal =>
    exact ⟨.channels ((t.memory i).channels userId), _, _, if_pos (List.Perm.refl _)⟩
  | _ => exact ⟨.none, _, _, rfl⟩

theorem exists_redisEffect (command : RedisCommand ι) {t : SigState ι}
    (ht : t.now + 300 * 1000 ≤ Keyspace.maxDeadline) :
    ∃ pick x t', command.effect pick t = some (x, t') := by
  have hex : ∀ {ν : Type} (ks : Keyspace ν) (k : String), ∃ ks', ks.expire t.now k 300 = some ks' :=
    fun ks k => Option.ne_none_iff_exists'.mp fun h => (expire_eq_none_iff.mp h).not_ge ht
  cases command with
  | expireCall callId =>
    obtain ⟨ks', h⟩ := hex t.hashes (callKey callId)
    exact ⟨.none, (), { t with hashes := ks' }, by simp only [RedisCommand.effect, h, Option.map_some]⟩
  | expireSet =>
    obtain ⟨ks', h⟩ := hex t.activeSet activeCallsSetKey
    exact ⟨.none, (), { t with activeSet := ks' }, by
      simp only [RedisCommand.effect, h, Option.map_some]⟩
  | smembers =>
    exact ⟨.ids (t.activeSet.smembers t.now activeCallsSetKey).toList, _, _,
      if_pos ⟨Finset.nodup_toList _, Finset.toList_toFinset _⟩⟩
  | scanOnline userId =>
    exact ⟨.devices (t.onlineDevices userId), _, _, if_pos (List.Perm.refl _)⟩
  | gate gate callerId calleeId => exact ⟨.passes true, _, _, rfl⟩
  | _ => exact ⟨.none, _, _, rfl⟩

theorem exec_total (q : SigStatement ι) (s : Admission ι)
    (hs : s.sig.now + 300 * 1000 ≤ Keyspace.maxDeadline) :
    ∃ input r s', Admission.exec D L q input s = some (r, s') ∧
      s'.sig.now + 300 * 1000 ≤ Keyspace.maxDeadline := by
  have hof : ∀ {r : q.Answer} {t : SigState ι} {pick : SigPick ι},
      s.sig.exec q ⟨.ok, pick⟩ = some (r, t) → t.now + 300 * 1000 ≤ Keyspace.maxDeadline :=
    fun he => (now_of_exec he).symm ▸ hs
  cases q with
  | clock => exact ⟨⟨.ok, .none⟩, s.sig.now, s, rfl, hs⟩
  | unregister j userId deviceId =>
    exact ⟨⟨.ok, .none⟩, (), { s with sig := _ }, rfl, hof rfl⟩
  | map j access =>
    obtain ⟨pick, x, t, he⟩ := exists_mapEffect (i := j) access s.sig
    refine ⟨⟨.ok, pick⟩, x, { s with sig := t }, ?_, hof he⟩
    simp only [Admission.exec, SigState.exec, if_true, he, Option.map_some]
  | redis command =>
    obtain ⟨pick, x, t, he⟩ := exists_redisEffect command hs
    have hex : s.sig.exec (.redis command) ⟨.ok, pick⟩ = some (some x, t) := by
      simp only [SigState.exec, fallible, he, Option.map_some]
    cases command with
    | gate gate callerId calleeId => 
      refine ⟨⟨.ok, .none⟩, _, _, rfl, ?_⟩
      cases gate <;> exact hs
    | setDeclineCooldown callerId calleeId => exact ⟨⟨.ok, .none⟩, _, _, rfl, hs⟩
    | _ =>
      refine ⟨⟨.ok, pick⟩, some x, { s with sig := t }, ?_, hof hex⟩
      simp only [Admission.exec, if_true, hex, Option.map_some]

end

/-! ### Spellings -/

section

variable {ι : Type} [DecidableEq ι] {D : Relations} {L : CallLimiter} {s s' : Admission ι}
  {i : ι} {req : InitiateCall} {caller a b : String} {online : Bool}

def Accepts (D : Relations) (L : CallLimiter) (i : ι) (caller text : String) (s : Admission ι)
    (online : Bool) : Prop :=
  ∃ callId deviceId s', Runs (Admission.exec D L)
    (initiateCall i true ⟨caller, deviceId, callId, text⟩) s (.ok online) s'

theorem runs_initiateCall :
    Runs (Admission.exec D L) (initiateCall i true req) s (.ok online) s' ↔ ∃ s₁,
      Runs (Admission.exec D L) (admitCall true req).run s (.ok ()) s₁ ∧
        Runs (Admission.exec D L) (registerCall i req) s₁ (.ok online) s' := by
  refine runs_bind.trans ⟨?_, ?_⟩
  · rintro ⟨admitted, s₁, hadmit, h⟩
    cases admitted with
    | error status => cases h.1
    | ok u => exact ⟨s₁, hadmit, h⟩
  · rintro ⟨s₁, hadmit, h⟩
    exact ⟨.ok (), s₁, hadmit, h⟩

theorem admitted (h : Runs (Admission.exec D L) (admitCall true req).run s (.ok ()) s') :
    s'.sig = s.sig ∧ ¬Declined L req.callerId req.calleeUserId s ∧
      ¬PeerFull L req.callerId req.calleeUserId s := by
  obtain ⟨-, -, -, -, s₁, hcall, hpeer, hdeclined⟩ := runs_admitCall.mp h
  have hs₁ := congrArg Prod.snd hcall
  have hs' := congrArg Prod.snd hpeer
  simp only [Admission.gate, Admission.charge] at hs₁ hs'
  subst hs₁ hs'
  refine ⟨rfl, hdeclined, fun ⟨n, hn, hle⟩ => ?_⟩
  refine charge_of_full (s := { s with counters := (incrExpire s.counters s.sig.now
    (callRateKey req.callerId) L.callWindowSecs).1 }) ?_ hle (congrArg Prod.fst hpeer)
  rw [get_congr (incrExpire_apply_of_ne peerRateKey_ne)]
  exact hn

theorem Accepts.spec (h : Accepts D L i caller a s online) :
    ¬Declined L caller a s ∧ ¬PeerFull L caller a s ∧ ¬Busy a s i ∧
      (online = true ↔ Online a s) := by
  obtain ⟨callId, deviceId, s', h⟩ := h
  obtain ⟨s₁, hadmit, h⟩ := runs_initiateCall.mp h
  obtain ⟨hsig, hdec, hfull⟩ := admitted hadmit
  have hbusy : Busy a s₁ i ↔ Busy a s i := by rw [Busy, hsig]; rfl
  have honl : Online a s₁ ↔ Online a s := by rw [Online, hsig]; rfl
  obtain ⟨-, e, he⟩ | ⟨hb, x, hx, hiff⟩ := runs_registerCall h
  · cases he
  · cases hx
    exact ⟨hdec, hfull, fun hB => hb (hbusy.mpr hB), hiff.trans honl⟩

theorem accepts_of_fresh (hL : L.Open) (hcaller : (Uuid.parseStr caller).isSome)
    (hb : (Uuid.parseStr b).isSome) (hnow : s.sig.now = 0)
    (hcall : s.counters.get 0 (callRateKey caller) = none)
    (hpeer : s.counters.get 0 (peerRateKey L caller b) = none)
    (hdec : s.cooldowns.get 0 (declineKey L caller b) = none) (hbusy : ¬Busy b s i) :
    ∃ online, Accepts ⟨fun _ _ => true, fun _ _ => false⟩ L i caller b s online := by
  obtain ⟨x, hx⟩ := Option.isSome_iff_exists.mp hcaller
  obtain ⟨y, hy⟩ := Option.isSome_iff_exists.mp hb
  have hne : b ≠ "" := by
    rintro rfl
    exact absurd hb (by decide)
  let s₁ := (s.charge (callRateKey caller) L.callMax L.callWindowSecs).2
  let s₂ := (s₁.charge (peerRateKey L caller b) L.peerMax L.peerWindowSecs).2
  have hc : s.charge (callRateKey caller) L.callMax L.callWindowSecs = (some true, s₁) :=
    Prod.ext (charge_of_fresh (hnow ▸ hcall) hL.call (by rw [hnow, Nat.zero_add]; exact hL.callWindow)) rfl
  have hp : s₁.charge (peerRateKey L caller b) L.peerMax L.peerWindowSecs = (some true, s₂) := by
    refine Prod.ext (charge_of_fresh ?_ hL.peer ?_) rfl
    · exact (get_congr (incrExpire_apply_of_ne peerRateKey_ne)).trans (hnow ▸ hpeer)
    · have hnow₁ : s₁.sig.now = 0 := hnow
      rw [hnow₁, Nat.zero_add]
      exact hL.peerWindow
  have hadmit : Runs (Admission.exec ⟨fun _ _ => true, fun _ _ => false⟩ L)
      (admitCall true ⟨caller, "", "call", b⟩).run s (.ok ()) s₂ := by
    refine runs_admitCall.mpr ⟨by simp [hne], by simp [hx, hy], ?_, ?_, s₁, hc, hp, ?_⟩
    · simp only [Admission.gate, hx, hy, Option.bind_some, Option.map_some]
    · simp only [Admission.gate, hx, hy, Option.bind_some, Option.map_some]
    · have : s₂.cooldowns.get s₂.sig.now (declineKey L caller b) = none := hnow ▸ hdec
      rw [Declined, this]
      simp
  have htime : s₂.sig.now + 300 * 1000 ≤ Keyspace.maxDeadline := by
    have : s₂.sig.now = 0 := hnow
    rw [this]
    decide
  obtain ⟨r, s', hr⟩ := exists_runs (registerCall i ⟨caller, "", "call", b⟩)
    (exec_total (D := ⟨fun _ _ => true, fun _ _ => false⟩) (L := L)) htime
  obtain ⟨hB, -⟩ | ⟨-, online, rfl, -⟩ := runs_registerCall hr
  · exact absurd hB hbusy
  · exact ⟨online, "call", "", s', runs_initiateCall.mpr ⟨s₂, hadmit, hr⟩⟩

def declinedUnder (k : String) : Admission ι :=
  ⟨.start 0, .empty, Keyspace.set .empty 0 k () (some 1)⟩

def countedUnder (k : String) (n : Nat) : Admission ι :=
  ⟨.start 0, Keyspace.set .empty 0 k n (some 1), .empty⟩

def inCallUnder (text : String) : Admission ι :=
  ⟨{ SigState.start 0 with
    pointers := Keyspace.set .empty 0 (activeCallKey text) "call" (some 1)
    hashes := Keyspace.set .empty 0 (callKey "call") .empty (some 1) }, .empty, .empty⟩

def onlineUnder (text : String) (i : ι) : Admission ι :=
  ⟨{ SigState.start 0 with online := [⟨text, "device", ⟨i, none⟩⟩] }, .empty, .empty⟩

omit [DecidableEq ι] in
theorem notBusy (hm : (s.sig.memory i).activeCalls a = none)
    (hp : s.sig.pointers.get s.sig.now (activeCallKey a) = none) : ¬Busy a s i := by
  rintro ⟨callId, hc, -⟩
  rw [hm, hp] at hc
  cases hc

/-- **A decline, a full limit, a call and a device that are recorded under one text count for a call
under another exactly if the texts are equal**, as long as the limits let calls pass and the buckets
of the two texts do not collide. -/
theorem admission_shared_iff (i : ι) (hL : L.Open)
    (hinj : L.peerBucket a = L.peerBucket b → a = b)
    (hcaller : (Uuid.parseStr caller).isSome) (hb : (Uuid.parseStr b).isSome) :
    ((∀ D s online, Declined L caller a s → ¬Accepts D L i caller b s online) ↔ a = b) ∧
      ((∀ D s online, PeerFull L caller a s → ¬Accepts D L i caller b s online) ↔ a = b) ∧
      ((∀ D s online, Busy a s i → ¬Accepts D L i caller b s online) ↔ a = b) ∧
      ((∀ D s online, Accepts D L i caller b s online → (online = true ↔ Online a s)) ↔ a = b) := by
  refine ⟨⟨fun h => by_contra fun hne => ?_, ?_⟩, ⟨fun h => by_contra fun hne => ?_, ?_⟩,
    ⟨fun h => by_contra fun hne => ?_, ?_⟩, ⟨fun h => by_contra fun hne => ?_, ?_⟩⟩
  · have hb' : declineKey L caller b ≠ declineKey L caller a :=
      fun h => hne (hinj (declineKey_inj.mp h).symm)
    obtain ⟨online, hacc⟩ := accepts_of_fresh (i := i) (s := declinedUnder (declineKey L caller a))
      hL hcaller hb rfl rfl rfl (get_set_of_ne hb') (notBusy rfl rfl)
    exact h _ _ online (by rw [Declined]; exact Option.isSome_iff_exists.mpr ⟨_, get_set_self⟩) hacc
  · rintro rfl D s online hrec hacc
    exact hacc.spec.1 hrec
  · have hb' : peerRateKey L caller b ≠ peerRateKey L caller a :=
      fun h => hne (hinj (peerRateKey_inj.mp h).symm)
    obtain ⟨online, hacc⟩ := accepts_of_fresh (i := i)
      (s := countedUnder (peerRateKey L caller a) L.peerMax) hL hcaller hb rfl
      (get_set_of_ne (Ne.symm peerRateKey_ne)) (get_set_of_ne hb') rfl (notBusy rfl rfl)
    exact h _ _ online ⟨_, get_set_self, le_rfl⟩ hacc
  · rintro rfl D s online hrec hacc
    exact hacc.spec.2.1 hrec
  · have hb' := activeCallKey_inj.not.mpr (Ne.symm hne)
    obtain ⟨online, hacc⟩ := accepts_of_fresh (i := i) (s := inCallUnder a) hL hcaller hb
      rfl rfl rfl rfl (notBusy rfl (get_set_of_ne hb'))
    have ha : Busy a (inCallUnder a) i :=
      ⟨"call", get_set_self, Option.isSome_iff_exists.mpr ⟨_, get_set_self⟩⟩
    exact h _ _ online ha hacc
  · rintro rfl D s online hrec hacc
    exact hacc.spec.2.2.1 hrec
  · obtain ⟨online, hacc⟩ := accepts_of_fresh (i := i) (s := onlineUnder a i) hL hcaller hb rfl rfl rfl rfl
      (notBusy rfl rfl)
    have ha : Online a (onlineUnder a i) := by
      refine ⟨("device", i), ?_, by simp⟩
      simp [onlineUnder, SigState.onlineDevices, Cell.live]
    obtain ⟨d, hd, -⟩ := hacc.spec.2.2.2.mp ((h _ _ online hacc).mpr ha)
    simp [onlineUnder, SigState.onlineDevices, Cell.live, hne] at hd
  · rintro rfl D s online hacc
    exact hacc.spec.2.2.2

end

def plainLimiter : CallLimiter := ⟨id, 10, 60, 3, 60, 60⟩

theorem open_plainLimiter : plainLimiter.Open := ⟨by decide, by decide, by decide, by decide⟩

def declinedCaller : String := (Uuid.repeated (Uuid.digit 1)).toStr

def declinedCallee : String := (Uuid.repeated (Uuid.digit 10)).toStr

def otherSpelling : String := "AAAAAAAAAAAAAAAAAAAAAAAAAAAAAAAA"

/-- A decline under one spelling refuses calls under it, and not all calls under the other one. -/
theorem admission_shared_iff_demo :
    (∀ D s online, Declined plainLimiter declinedCaller declinedCallee s →
        ¬Accepts D plainLimiter () declinedCaller declinedCallee s online) ∧
      ¬∀ D s online, Declined plainLimiter declinedCaller declinedCallee s →
        ¬Accepts D plainLimiter () declinedCaller otherSpelling s online := by
  have hcaller : (Uuid.parseStr declinedCaller).isSome := by decide +kernel
  have hshared := fun {b : String} (hb : (Uuid.parseStr b).isSome) =>
    (admission_shared_iff (a := declinedCallee) () open_plainLimiter id hcaller hb).1
  refine ⟨(hshared (by decide +kernel)).mpr rfl, fun h => ?_⟩
  exact absurd ((hshared (by decide +kernel)).mp h) (by decide +kernel)

def callsAgain (calleeUserId : String) : Sig Unit (Except Status Bool) := do
  pipe (.setDeclineCooldown declinedCaller declinedCallee)
  initiateCall () true ⟨declinedCaller, "d", "c", calleeUserId⟩

/-- **A caller who was declined calls again under another spelling**: the callee is the same, and
the cooldown is not found. -/
theorem declined_call_under_another_spelling :
    Uuid.parseStr otherSpelling = Uuid.parseStr declinedCallee ∧
      (∃ s', Runs (Admission.exec ⟨fun _ _ => true, fun _ _ => false⟩ plainLimiter)
        (callsAgain declinedCallee) ⟨.start 0, .empty, .empty⟩
        (.error ⟨.resourceExhausted, "Callee declined recently (cooldown)"⟩) s') ∧
      ∃ s', Runs (Admission.exec ⟨fun _ _ => true, fun _ _ => false⟩ plainLimiter)
        (callsAgain otherSpelling) ⟨.start 0, .empty, .empty⟩ (.ok false) s' := by
  have hrun : ∀ {p : Sig Unit (Except Status Bool)} {r},
      (execute (Admission.exec ⟨fun _ _ => true, fun _ _ => false⟩ plainLimiter) p
        (List.replicate 30 ⟨.ok, .devices []⟩) ⟨.start 0, .empty, .empty⟩).map Prod.fst = some r →
      ∃ s', Runs (Admission.exec ⟨fun _ _ => true, fun _ _ => false⟩ plainLimiter) p
        ⟨.start 0, .empty, .empty⟩ r s' := by
    intro p r h
    obtain ⟨⟨_, s'⟩, he, rfl⟩ := Option.map_eq_some_iff.mp h
    exact ⟨s', runs_of_execute he⟩
  exact ⟨by decide +kernel, hrun (by decide +kernel), hrun (by decide +kernel)⟩

end ConstructServer.Signaling
