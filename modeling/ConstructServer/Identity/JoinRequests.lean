import ConstructServer.Identity.DeviceIds

/-!
# Join requests

A new device leaves its keys under an id of its choice, an existing device approves the id, and
whoever asks for the id gets the tokens. Nobody has to show who they are to submit or to ask: a
later submission replaces the keys of an earlier one, and the tokens are handed out for two minutes
to everybody who knows the id, after the approver has had them. If an id is submitted only while it
is free, and the approval and the question come from the one who has submitted it, the request stays
in one hand.
-/

namespace ConstructServer.Identity

open Calls Machine Redis.Keyspace List Option
open Queue (Bytes)
open Redis (Keyspace)

variable {Caller : Type}

/-- A join request that was stored. The caller is noted when the call returns. -/
structure Submission (Caller : Type) where
  session : Nat
  caller : Option Caller
  device : String
  payload : Bytes
  /-- In milliseconds. -/
  time : Nat

def Submission.deadline (sub : Submission Caller) : Nat := sub.time + 10 * 60 * 1000

/-- A session has taken the join request of a device, with the first submission of it that is not
over. -/
structure Taking (Caller : Type) where
  session : Nat
  device : String
  first : Option (Submission Caller)

structure JoinLog (Caller : Type) where
  pending : List (Submission Caller)
  taken : List (Taking Caller)
  created : List (Nat × CreateDeviceData)
  made : List (String × Nat)
  stored : List String
  returned : List (Caller × String)

namespace JoinLog

def empty : JoinLog Caller := ⟨[], [], [], [], [], []⟩

def firstPending (g : JoinLog Caller) (device : String) (now : Nat) : Option (Submission Caller) :=
  (g.pending.filter fun sub => sub.device = device ∧ now ≤ sub.deadline).getLast?

end JoinLog

def noteJoin (n : Nat) (q : IdentityStatement) (x : q.Reply) (s : IdentityState) (g : JoinLog Caller) :
    JoinLog Caller :=
  match q, x with
  | .storeJoin device payload, _ =>
    { g with pending := ⟨n, none, device, payload, s.now⟩ :: g.pending }
  | .consumeJoin device, payload =>
    { g with
      pending := g.pending.filter fun sub => sub.device ≠ device
      taken := if payload.isSome then ⟨n, device, g.firstPending device s.now⟩ :: g.taken else g.taken }
  | .createDevice data _, .ok _ => { g with created := (n, data) :: g.created }
  | .signToken false _ _, token => { g with made := (token.jti, n) :: g.made }
  | .storeApproved _ value, _ => { g with stored := value.accessToken.jti :: g.stored }
  | _, _ => g

def finishJoin (n : Nat) (call : Caller × IdentityCall) (answer : IdentityAnswer) (_ : IdentityState)
    (g : JoinLog Caller) : JoinLog Caller :=
  { g with
    pending := g.pending.map fun sub =>
      if sub.session = n then { sub with caller := some call.1 } else sub
    returned := match answer with
      | .approved tokens | .joinStatus (.approved tokens) =>
        (call.1, tokens.accessToken.jti) :: g.returned
      | _ => g.returned }

def joinWatch : Watcher (Caller × IdentityCall) (JoinLog Caller) := ⟨Prod.snd, noteJoin, finishJoin⟩

/-! ### The stored requests -/

/-- What is stored is what was submitted and not taken; for each id there is one submission that is
not over. -/
structure PendingInv (now : Nat) (ks : Keyspace Bytes) (pending : List (Submission Caller)) : Prop where
  stored : ∀ sub ∈ pending, now ≤ sub.deadline →
    ks (joinRequestKey sub.device) = some ⟨sub.payload, some sub.deadline⟩
  submitted : ∀ device c, ks (joinRequestKey device) = some c → c.live now = true →
    ∃ sub ∈ pending, sub.device = device ∧ now ≤ sub.deadline
  one : ∀ sub ∈ pending, ∀ sub' ∈ pending, sub.device = sub'.device → now ≤ sub.deadline →
    now ≤ sub'.deadline → sub = sub'

section

variable {now : Nat} {ks : Keyspace Bytes} {pending : List (Submission Caller)} {device : String}
  {payload : Bytes}

theorem PendingInv.get_of_mem (h : PendingInv now ks pending) {sub : Submission Caller}
    (hs : sub ∈ pending)
    (hl : now ≤ sub.deadline) : ks.get now (joinRequestKey sub.device) = some sub.payload :=
  get_of_le (h.stored sub hs hl) hl

theorem PendingInv.tick {now' : Nat} (h : PendingInv now ks pending) (hle : now ≤ now') :
    PendingInv now' ks pending := by
  refine ⟨fun sub hs hl => h.stored sub hs (hle.trans hl), fun device c hc hl => ?_,
    fun sub hs sub' hs' hde hl hl' =>
      h.one sub hs sub' hs' hde (hle.trans hl) (hle.trans hl')⟩
  obtain ⟨sub, hs, rfl, hbe⟩ := h.submitted device c hc (Redis.Cell.live_mono hle hl)
  have hd : c.deadline = some sub.deadline := by
    rw [h.stored sub hs hbe] at hc
    rw [← some.inj hc]
  -- Rewriting keeps the kernel from counting the milliseconds of the deadline.
  rw [Redis.Cell.live, hd, all_some, decide_eq_true_eq] at hl
  exact ⟨sub, hs, rfl, hl⟩

theorem PendingInv.store {n : Nat} (h : PendingInv now ks pending)
    (hf : ks.get now (joinRequestKey device) = none) :
    PendingInv now (ks.set now (joinRequestKey device) payload (some (10 * 60)))
      (⟨n, none, device, payload, now⟩ :: pending) := by
  have ho : ∀ sub ∈ pending, sub.device = device → ¬now ≤ sub.deadline := by
    rintro sub hs rfl hl
    cases (h.get_of_mem hs hl).symm.trans hf
  refine ⟨fun sub hs hl => ?_, fun device' c hc hl => ?_, fun sub hs sub' hs' hde hl hl' => ?_⟩
  · rcases mem_cons.mp hs with rfl | hs
    · exact set_apply_self
    · have hne : sub.device ≠ device := fun heq => ho sub hs heq hl
      rw [set_apply_of_ne (joinRequestKey_injective.ne hne)]
      exact h.stored sub hs hl
  · by_cases hde : device' = device
    · refine ⟨_, mem_cons_self, hde.symm, ?_⟩
      show now ≤ now + 10 * 60 * 1000
      omega
    · rw [set_apply_of_ne (joinRequestKey_injective.ne hde)] at hc
      obtain ⟨sub, hs, hr⟩ := h.submitted device' c hc hl
      exact ⟨sub, mem_cons_of_mem _ hs, hr⟩
  · rcases mem_cons.mp hs with rfl | hs
    · rcases mem_cons.mp hs' with rfl | hs'
      · rfl
      · exact absurd hl' (ho sub' hs' hde.symm)
    · rcases mem_cons.mp hs' with rfl | hs'
      · exact absurd hl (ho sub hs hde)
      · exact h.one sub hs sub' hs' hde hl hl'

theorem PendingInv.take (h : PendingInv now ks pending) : PendingInv now (ks.del (joinRequestKey device))
      (pending.filter fun sub => sub.device ≠ device) := by
  have hm : ∀ {sub}, sub ∈ pending.filter (fun sub => sub.device ≠ device) ↔
      sub ∈ pending ∧ sub.device ≠ device := by simp
  refine ⟨fun sub hs hl => ?_, fun device' c hc hl => ?_,
    fun sub hs sub' hs' => h.one sub (hm.mp hs).1 sub' (hm.mp hs').1⟩
  · obtain ⟨hs, hne⟩ := hm.mp hs
    rw [del_apply_of_ne (joinRequestKey_injective.ne hne)]
    exact h.stored sub hs hl
  · have hne : device' ≠ device := by
      rintro rfl
      rw [Keyspace.del, Function.update_self] at hc
      cases hc
    rw [del_apply_of_ne (joinRequestKey_injective.ne hne)] at hc
    obtain ⟨sub, hs, rfl, hr⟩ := h.submitted device' c hc hl
    exact ⟨sub, hm.mpr ⟨hs, hne⟩, rfl, hr⟩

theorem PendingInv.map (h : PendingInv now ks pending) {f : Submission Caller → Submission Caller}
    (hde : ∀ sub, (f sub).device = sub.device) (hp : ∀ sub, (f sub).payload = sub.payload)
    (hti : ∀ sub, (f sub).time = sub.time) : PendingInv now ks (pending.map f) := by
  have hd : ∀ sub, (f sub).deadline = sub.deadline := fun sub => by
    rw [Submission.deadline, hti, Submission.deadline]
  refine ⟨fun sub hs hl => ?_, fun device c hc hl => ?_, fun sub hs sub' hs' => ?_⟩
  · obtain ⟨old, ho, rfl⟩ := mem_map.mp hs
    rw [hd] at hl ⊢
    rw [hde, hp]
    exact h.stored old ho hl
  · obtain ⟨sub, hs, hid, hbe⟩ := h.submitted device c hc hl
    exact ⟨f sub, mem_map_of_mem hs, (hde sub).trans hid, (hd sub).symm ▸ hbe⟩
  · obtain ⟨old, ho, rfl⟩ := mem_map.mp hs
    obtain ⟨old', ho', rfl⟩ := mem_map.mp hs'
    rw [hde, hde, hd, hd]
    intro hid hl hl'
    rw [h.one old ho old' ho' hid hl hl']

end

theorem PendingInv.first_eq {g : JoinLog Caller} {now : Nat} {ks : Keyspace Bytes} {device : String}
    {payload : Bytes} (h : PendingInv now ks g.pending)
    (hg : ks.get now (joinRequestKey device) = some payload) :
    ∃ sub, g.firstPending device now = some sub ∧ sub.device = device ∧ sub.payload = payload := by
  obtain ⟨c, hc, hli, rfl⟩ := get_eq_some_iff.mp hg
  obtain ⟨sub, hs, hde, hbe⟩ := h.submitted device c hc hli
  have hm : sub ∈ g.pending.filter fun sub => sub.device = device ∧ now ≤ sub.deadline :=
    mem_filter.mpr ⟨hs, by simp [hde, hbe]⟩
  obtain ⟨last, hlas⟩ := ne_none_iff_exists'.mp (mt List.getLast?_eq_none_iff.mp (ne_nil_of_mem hm))
  have hl := mem_filter.mp (mem_of_getLast? hlas)
  obtain ⟨hid, hla⟩ := of_decide_eq_true hl.2
  refine ⟨last, hlas, hid, ?_⟩
  have hst := h.stored last hl.1 hla
  rw [hid, hc] at hst
  exact (congrArg Redis.Cell.value (some.inj hst)).symm

/-! ### Devices and tokens -/

def Carries (cfg : IdentityConfig) (sub : Submission Caller) (data : CreateDeviceData) : Prop :=
  ∃ join, decodeStored cfg sub.payload = some join ∧ data.verifyingKey = join.verifyingKey ∧
    data.identityPublic = join.identityPublic ∧ data.signedPrekeyPublic = join.signedPrekeyPublic ∧
    data.signedPrekeySignature = join.signedPrekeySignature

structure TokenInv (cfg : IdentityConfig) (jtis : List String) (approvals : Keyspace JoinApproved)
    (g : JoinLog Caller) : Prop where
  keys : ∀ t ∈ g.taken, ∀ data, (t.session, data) ∈ g.created →
    ∃ sub, t.first = some sub ∧ sub.device = data.deviceId ∧ Carries cfg sub data
  signed : ∀ m ∈ g.made, m.1 ∈ jtis
  maker : ∀ m ∈ g.made, ∀ m' ∈ g.made, m.1 = m'.1 → m = m'
  stored : ∀ jti ∈ g.stored, ∃ n, (jti, n) ∈ g.made
  approved : ∀ k c, approvals k = some c → c.value.accessToken.jti ∈ g.stored
  returned : ∀ r ∈ g.returned, r.2 ∈ g.stored
  submitter : ∀ r ∈ g.returned, ∀ t ∈ g.taken, (r.2, t.session) ∈ g.made →
    t.first.bind Submission.caller = some r.1
  once : (g.returned.map Prod.snd).Nodup

/-- The session has taken nothing, and neither created a device nor signed a token. -/
structure Idle (n : Nat) (g : JoinLog Caller) : Prop where
  taken : ∀ t ∈ g.taken, t.session ≠ n
  created : ∀ e ∈ g.created, e.1 ≠ n
  made : ∀ m ∈ g.made, m.2 ≠ n

section

variable {cfg : IdentityConfig} {jtis jtis' : List String} {approvals : Keyspace JoinApproved}
  {g : JoinLog Caller} {n : Nat} {pending : List (Submission Caller)} {jti : String}

theorem TokenInv.mono (h : TokenInv cfg jtis approvals g) (hj : ∀ jti ∈ jtis, jti ∈ jtis') :
    TokenInv cfg jtis' approvals { g with pending } :=
  ⟨h.keys, fun m hm => hj _ (h.signed m hm), h.maker, h.stored, h.approved, h.returned, h.submitter,
    h.once⟩

theorem TokenInv.take (h : TokenInv cfg jtis approvals g) {t : Taking Caller} (ht : t.session = n)
    (hcr : ∀ e ∈ g.created, e.1 ≠ n) (hm : ∀ m ∈ g.made, m.2 ≠ n) :
    TokenInv cfg jtis approvals { g with pending, taken := t :: g.taken } := by
  refine ⟨fun t' ht' data hda => ?_, h.signed, h.maker, h.stored, h.approved, h.returned,
    fun r hr t' ht' hma => ?_, h.once⟩
  · rcases mem_cons.mp ht' with rfl | ht'
    · exact absurd ht (hcr _ hda)
    · exact h.keys t' ht' data hda
  · rcases mem_cons.mp ht' with rfl | ht'
    · exact absurd ht (hm _ hma)
    · exact h.submitter r hr t' ht' hma

theorem TokenInv.create (h : TokenInv cfg jtis approvals g) {data : CreateDeviceData}
    (hke : ∀ t ∈ g.taken, t.session = n →
      ∃ sub, t.first = some sub ∧ sub.device = data.deviceId ∧ Carries cfg sub data) :
    TokenInv cfg jtis approvals { g with created := (n, data) :: g.created } := by
  refine ⟨fun t ht data' hda => ?_, h.signed, h.maker, h.stored, h.approved, h.returned, h.submitter, h.once⟩
  rcases mem_cons.mp hda with heq | hda
  · obtain ⟨hn, rfl⟩ := Prod.mk.inj heq
    exact hke t ht hn
  · exact h.keys t ht data' hda

theorem TokenInv.make (h : TokenInv cfg jtis approvals g) (hn : jti ∉ jtis) :
    TokenInv cfg (jti :: jtis) approvals { g with made := (jti, n) :: g.made } := by
  have ho : ∀ m ∈ g.made, m.1 ≠ jti := fun m hm heq => hn (heq ▸ h.signed m hm)
  refine ⟨h.keys, fun m hm => ?_, fun m hm m' hm' heq => ?_, fun jti' hj' => ?_, h.approved, h.returned,
    fun r hr t ht hma => ?_, h.once⟩
  · rcases mem_cons.mp hm with rfl | hm
    · exact mem_cons_self
    · exact mem_cons_of_mem _ (h.signed m hm)
  · rcases mem_cons.mp hm with rfl | hm
    · rcases mem_cons.mp hm' with rfl | hm'
      · rfl
      · exact absurd heq.symm (ho m' hm')
    · rcases mem_cons.mp hm' with rfl | hm'
      · exact absurd heq (ho m hm)
      · exact h.maker m hm m' hm' heq
  · obtain ⟨k, hk⟩ := h.stored jti' hj'
    exact ⟨k, mem_cons_of_mem _ hk⟩
  · rcases mem_cons.mp hma with heq | hma
    · -- What was handed out was signed before.
      obtain ⟨k, hk⟩ := h.stored r.2 (h.returned r hr)
      exact absurd (Prod.mk.inj heq).1 (ho _ hk)
    · exact h.submitter r hr t ht hma

theorem TokenInv.store (h : TokenInv cfg jtis approvals g) {now : Nat} {k : String}
    {value : JoinApproved} {ttl : Option Nat} (hma : (value.accessToken.jti, n) ∈ g.made) :
    TokenInv cfg jtis (approvals.set now k value ttl)
      { g with stored := value.accessToken.jti :: g.stored } := by
  refine ⟨h.keys, h.signed, h.maker, fun jti' hj' => ?_, fun k' c hc => ?_,
    fun r hr => mem_cons_of_mem _ (h.returned r hr), h.submitter, h.once⟩
  · rcases mem_cons.mp hj' with rfl | hj'
    · exact ⟨n, hma⟩
    · exact h.stored jti' hj'
  · by_cases hk : k' = k
    · rw [hk, set_apply_self] at hc
      cases hc
      exact mem_cons_self
    · rw [set_apply_of_ne hk] at hc
      exact mem_cons_of_mem _ (h.approved k' c hc)

theorem TokenInv.handOut (h : TokenInv cfg jtis approvals g) {caller : Caller} (hst : jti ∈ g.stored)
    (hn : jti ∉ g.returned.map Prod.snd) (hca : ∀ t ∈ g.taken, (jti, t.session) ∈ g.made →
      t.first.bind Submission.caller = some caller) :
    TokenInv cfg jtis approvals { g with pending, returned := (caller, jti) :: g.returned } := by
  refine ⟨h.keys, h.signed, h.maker, h.stored, h.approved, fun r hr => ?_, fun r hr => ?_, ?_⟩
  · rcases mem_cons.mp hr with rfl | hr
    · exact hst
    · exact h.returned r hr
  · rcases mem_cons.mp hr with rfl | hr
    · exact hca
    · exact h.submitter r hr
  · exact nodup_cons.mpr ⟨hn, h.once⟩

end

/-! ### What the calls promise -/

/-- What a session relies on: the other sessions add nothing in its name, and do not store its
tokens. -/
structure Undisturbed (n : Nat) (g g' : JoinLog Caller) : Prop where
  taken : ∀ t ∈ g'.taken, t.session = n → t ∈ g.taken
  kept : ∀ t ∈ g.taken, t ∈ g'.taken
  created : ∀ e ∈ g'.created, e.1 = n → e ∈ g.created
  made : ∀ m ∈ g'.made, m.2 = n → m ∈ g.made
  signed : ∀ m ∈ g.made, m ∈ g'.made
  stored : ∀ jti, (jti, n) ∈ g.made → jti ∉ g.stored → jti ∉ g'.stored

theorem Undisturbed.refl {n : Nat} {g : JoinLog Caller} : Undisturbed n g g :=
  ⟨fun _ ht _ => ht, fun _ => id, fun _ he _ => he, fun _ hm _ => hm, fun _ => id, fun _ _ => id⟩

theorem Undisturbed.trans {n : Nat} {g g₁ g₂ : JoinLog Caller} (h : Undisturbed n g g₁)
    (h' : Undisturbed n g₁ g₂) : Undisturbed n g g₂ :=
  ⟨fun t ht hn => h.taken t (h'.taken t ht hn) hn, fun t ht => h'.kept t (h.kept t ht),
    fun e he hn => h.created e (h'.created e he hn) hn, fun m hm hn => h.made m (h'.made m hm hn) hn,
    fun m hm => h'.signed m (h.signed m hm),
    fun jti hm hno => h'.stored jti (h.signed _ hm) (h.stored jti hm hno)⟩

structure JoinInv (cfg : IdentityConfig) (w : IdentityState × JoinLog Caller) : Prop where
  requests : PendingInv w.1.now w.1.joinRequests w.2.pending
  tokens : TokenInv cfg w.1.jtis w.1.joinApproved w.2

/-- An id is submitted only while it is free, and it is approved and asked for by the one who has
submitted it; the tokens are asked for only while they have not been handed out. -/
def joinHandover (cfg : IdentityConfig) :
    Discipline IdentityStatement (Input Pick) (IdentityState × JoinLog Caller) (Caller × IdentityCall) where
  inv := JoinInv cfg
  fresh n w := Idle n w.2
  rely n _ w w' := Undisturbed n w.2 w'.2
  begins _ _ := True
  compat _ _ := True
  care c q _ w := match q with
    | .storeJoin device _ => w.1.joinRequests.get w.1.now (joinRequestKey device) = none
    | .consumeJoin device => ∀ sub ∈ w.2.firstPending device w.1.now, sub.caller = some c.1
    | .getApproved device => ∀ value ∈ w.1.joinApproved.get w.1.now (joinApprovedKey device),
        value.accessToken.jti ∉ w.2.returned.map Prod.snd ∧
        ∀ t ∈ w.2.taken, (value.accessToken.jti, t.session) ∈ w.2.made →
          t.first.bind Submission.caller = some c.1
    | _ => True
  refl _ _ _ := .refl
  trans h h' := h.trans h'

variable {cfg : IdentityConfig} {s s' : IdentityState} {q : IdentityStatement} {x : q.Reply} {pick : Pick}
  {input : Input Pick} {n : Nat} {c : Caller × IdentityCall} {g g' : JoinLog Caller}
  {w w' : IdentityState × JoinLog Caller}

/-! ### One statement -/

/-- The log grows by what one session has done. -/
structure Adds (n : Nat) (g g' : JoinLog Caller) : Prop where
  taken : ∀ t ∈ g'.taken, t ∈ g.taken ∨ t.session = n
  kept : ∀ t ∈ g.taken, t ∈ g'.taken
  created : ∀ e ∈ g'.created, e ∈ g.created ∨ e.1 = n
  made : ∀ m ∈ g'.made, m ∈ g.made ∨ m.2 = n
  signed : ∀ m ∈ g.made, m ∈ g'.made
  stored : ∀ jti ∈ g'.stored, jti ∈ g.stored ∨ (jti, n) ∈ g.made

theorem keeps_of_adds (hinv : JoinInv cfg w) (hinv' : JoinInv cfg w') (h : Adds n w.2 w'.2) :
    (joinHandover cfg).Keeps n c w w' := by
  refine ⟨hinv', fun n' hn' hid => ⟨fun t ht => ?_, fun e he => ?_, fun m hm => ?_⟩,
    fun n' _ hn' _ => ⟨fun t ht hn => ?_, h.kept, fun e he hn => ?_, fun m hm hn => ?_, h.signed,
      fun jti hma hno hjt => ?_⟩⟩
  · exact (h.taken t ht).elim (hid.taken t) fun heq => heq ▸ Nat.ne_of_lt hn'
  · exact (h.created e he).elim (hid.created e) fun heq => heq ▸ Nat.ne_of_lt hn'
  · exact (h.made m hm).elim (hid.made m) fun heq => heq ▸ Nat.ne_of_lt hn'
  · exact (h.taken t ht).resolve_right fun heq => hn' (hn.symm.trans heq)
  · exact (h.created e he).resolve_right fun heq => hn' (hn.symm.trans heq)
  · exact (h.made m hm).resolve_right fun heq => hn' (hn.symm.trans heq)
  · -- The token of this session would be one of the other.
    rcases h.stored jti hjt with ho | hown
    · exact hno ho
    · exact hn' (Prod.mk.inj (hinv.tokens.maker _ hma _ hown rfl)).2

structure Proper (cfg : IdentityConfig) (n : Nat) (q : IdentityStatement)
    (w : IdentityState × JoinLog Caller) : Prop where
  store : ∀ device payload, q = .storeJoin device payload →
    w.1.joinRequests.get w.1.now (joinRequestKey device) = none
  take : ∀ device, q = .consumeJoin device →
    (∀ e ∈ w.2.created, e.1 ≠ n) ∧ ∀ m ∈ w.2.made, m.2 ≠ n
  create : ∀ data user, q = .createDevice data user → ∀ t ∈ w.2.taken, t.session = n →
    ∃ sub, t.first = some sub ∧ sub.device = data.deviceId ∧ Carries cfg sub data
  approve : ∀ device value, q = .storeApproved device value →
    (value.accessToken.jti, n) ∈ w.2.made

theorem adds_noteJoin (h : Proper cfg n q w) : Adds n w.2 (noteJoin n q x w.1 w.2) := by
  have hs : Adds n w.2 w.2 :=
    ⟨fun _ => .inl, fun _ => id, fun _ => .inl, fun _ => .inl, fun _ => id, fun _ => .inl⟩
  unfold noteJoin
  split
  · exact ⟨hs.taken, hs.kept, hs.created, hs.made, hs.signed, hs.stored⟩
  · refine ⟨fun t ht => ?_, fun t ht => ?_, hs.created, hs.made, hs.signed, hs.stored⟩
    · dsimp only at ht
      split at ht
      · exact (mem_cons.mp ht).elim (fun heq => .inr (heq ▸ rfl)) .inl
      · exact .inl ht
    · dsimp only
      split
      · exact mem_cons_of_mem _ ht
      · exact ht
  · refine ⟨hs.taken, hs.kept, fun e he => ?_, hs.made, hs.signed, hs.stored⟩
    exact (mem_cons.mp he).elim (fun heq => .inr (heq ▸ rfl)) .inl
  · refine ⟨hs.taken, hs.kept, hs.created, fun m hm => ?_, fun m hm => mem_cons_of_mem _ hm, hs.stored⟩
    exact (mem_cons.mp hm).elim (fun heq => .inr (heq ▸ rfl)) .inl
  · refine ⟨hs.taken, hs.kept, hs.created, hs.made, hs.signed, fun jti hjt => ?_⟩
    exact (mem_cons.mp hjt).elim (fun heq => .inr (heq ▸ h.approve _ _ rfl)) .inl
  · exact hs

theorem IdentityEffect.jtis (h : IdentityEffect cfg s q s') : ∀ jti ∈ s.jtis, jti ∈ s'.jtis := by
  cases h with
  | aside _ _ _ _ _ _ _ hj => exact hj
  | createDevice hin =>
    obtain ⟨-, -, -, -, rfl⟩ := insertDevice_eq_ok_iff.mp hin
    exact fun _ => id
  | createUser _ hin =>
    obtain ⟨-, rfl⟩ := insertUser_eq_some hin
    exact fun _ => id
  | _ => exact fun _ => id

def IdentityStatement.writesJoins : IdentityStatement → Bool
  | .storeJoin .. | .consumeJoin _ | .storeApproved .. => true
  | _ => false

theorem IdentityEffect.joins (h : IdentityEffect cfg s q s') (hq : q.writesJoins = false) :
    s'.joinRequests = s.joinRequests ∧ s'.joinApproved = s.joinApproved := by
  cases h with
  | createDevice hin =>
    obtain ⟨-, -, -, -, rfl⟩ := insertDevice_eq_ok_iff.mp hin
    exact ⟨rfl, rfl⟩
  | createUser _ hin =>
    obtain ⟨-, rfl⟩ := insertUser_eq_some hin
    exact ⟨rfl, rfl⟩
  | storeJoin | consumeJoin | storeApproved => cases hq
  | _ => exact ⟨rfl, rfl⟩

theorem JoinInv.other (h : JoinInv cfg (s, g)) (he : IdentityEffect cfg s q s')
    (hq : q.writesJoins = false) : JoinInv cfg (s', g) := by
  obtain ⟨hre, hap⟩ := he.joins hq
  refine ⟨?_, ?_⟩
  · show PendingInv s'.now s'.joinRequests g.pending
    rw [he.now_eq, hre]
    exact h.requests
  · show TokenInv cfg s'.jtis s'.joinApproved g
    rw [hap]
    exact h.tokens.mono he.jtis

theorem JoinInv.effect (h : JoinInv cfg w) (hpr : Proper cfg n q w)
    (he : w.1.effect cfg q pick = some (x, s')) : JoinInv cfg (s', noteJoin n q x w.1 w.2) := by
  have hin := identityEffect_of_effect he
  cases q with
  | storeJoin device payload =>
    simp only [IdentityState.effect] at he
    obtain ⟨ks, hks, heq⟩ := map_eq_some_iff.mp he
    cases heq
    obtain ⟨-, -, rfl⟩ := setEx_eq_some_iff.mp hks
    exact ⟨h.requests.store (hpr.store device payload rfl), h.tokens.mono fun _ => id⟩
  | consumeJoin device =>
    obtain ⟨-, rfl⟩ := Prod.mk.inj (some.inj he)
    obtain ⟨hcr, hma⟩ := hpr.take device rfl
    refine ⟨h.requests.take, ?_⟩
    simp only [noteJoin]
    split
    · exact h.tokens.take rfl hcr hma
    · exact h.tokens.mono fun _ => id
  | createDevice data user =>
    have ho := h.other hin rfl
    cases x with
    | ok _ => exact ⟨ho.requests, ho.tokens.create (hpr.create data user rfl)⟩
    | error e => exact ho
  | signToken isRefresh user device =>
    cases isRefresh with
    | true => exact h.other hin rfl
    | false =>
      simp only [IdentityState.effect] at he
      split at he
      · split at he
        · cases he
        · rename_i hn
          obtain ⟨rfl, rfl⟩ := Prod.mk.inj (some.inj he)
          exact ⟨h.requests, h.tokens.make hn⟩
      · cases he
  | storeApproved device value =>
    simp only [IdentityState.effect] at he
    obtain ⟨ks, hks, heq⟩ := map_eq_some_iff.mp he
    cases heq
    obtain ⟨-, -, rfl⟩ := setEx_eq_some_iff.mp hks
    exact ⟨h.requests, h.tokens.store (hpr.approve device value rfl)⟩
  | _ => exact h.other hin rfl

theorem keeps_handover (hinv : JoinInv cfg w) (hpr : Proper cfg n q w)
    (h : watchedEffect cfg joinWatch n q pick w = some (x, w')) : (joinHandover cfg).Keeps n c w w' := by
  obtain ⟨he, hno⟩ := noted_eq_some h
  have hw' : w' = (w'.1, noteJoin n q x w.1 w.2) := Prod.ext rfl hno
  rw [hw']
  exact keeps_of_adds hinv (hinv.effect hpr he) (adds_noteJoin hpr)

/-! ### The end of a call -/

/-- The token may be handed out to the caller. -/
structure Handable (caller : Caller) (jti : String) (g : JoinLog Caller) : Prop where
  stored : jti ∈ g.stored
  unreturned : jti ∉ g.returned.map Prod.snd
  submitter : ∀ t ∈ g.taken, (jti, t.session) ∈ g.made → t.first.bind Submission.caller = some caller

def IdentityAnswer.handsOut : IdentityAnswer → Option String
  | .approved tokens | .joinStatus (.approved tokens) => some tokens.accessToken.jti
  | _ => none

theorem keeps_finishJoin {answer : IdentityAnswer} (hinv : JoinInv cfg w)
    (h : ∀ jti ∈ answer.handsOut, Handable c.1 jti w.2) :
    (joinHandover cfg).Keeps n c w (watchedEnd joinWatch n c answer w) := by
  have hre : PendingInv w.1.now w.1.joinRequests (w.2.pending.map fun sub =>
      if sub.session = n then { sub with caller := some c.1 } else sub) := by
    apply hinv.requests.map
    · intro sub
      split <;> rfl
    · intro sub
      split <;> rfl
    · intro sub
      split <;> rfl
  refine keeps_of_adds hinv ⟨hre, ?_⟩
    ⟨fun _ => .inl, fun _ => id, fun _ => .inl, fun _ => .inl, fun _ => id, fun _ => .inl⟩
  show TokenInv cfg w.1.jtis w.1.joinApproved (finishJoin n c answer w.1 w.2)
  unfold finishJoin
  split
  · obtain ⟨hst, hn, hca⟩ := h _ rfl
    exact hinv.tokens.handOut hst hn hca
  · obtain ⟨hst, hn, hca⟩ := h _ rfl
    exact hinv.tokens.handOut hst hn hca
  · exact hinv.tokens.mono fun _ => id

/-! ### Calls that approve nothing -/

theorem Idle.stable (h : Idle n w.2) (hre : (joinHandover cfg).rely n c w w') : Idle n w'.2 :=
  ⟨fun t ht hn => h.taken t (hre.taken t ht hn) hn, fun e he hn => h.created e (hre.created e he hn) hn,
    fun m hm hn => h.made m (hre.made m hm hn) hn⟩

theorem noteJoin_taken (hq : ∀ device, q ≠ .consumeJoin device) : (noteJoin n q x s g).taken = g.taken := by
  unfold noteJoin
  split
  · rfl
  · exact absurd rfl (hq _)
  · rfl
  · rfl
  · rfl
  · rfl

theorem noteJoin_stored (hq : ∀ device value, q ≠ .storeApproved device value) :
    (noteJoin n q x s g).stored = g.stored := by
  unfold noteJoin
  split
  · rfl
  · rfl
  · rfl
  · rfl
  · exact absurd rfl (hq _ _)
  · rfl

theorem proper_of_aside (hq : q.isAside = true) : Proper cfg n q w := by
  constructor
  · rintro device payload rfl
    cases hq
  · rintro device rfl
    cases hq
  · rintro data user rfl
    cases hq
  · rintro device value rfl
    cases hq

def IdentityStatement.approves : IdentityStatement → Bool
  | .consumeJoin _ | .storeApproved .. => true
  | _ => false

theorem not_approves_of_aside (q : IdentityStatement) (hq : q.isAside = true) : q.approves = false := by
  cases q <;> first | rfl | cases hq

variable {α E : Type}

/-- The call joins as agreed. -/
abbrev JoinsSafely (cfg : IdentityConfig) :=
  (@joinHandover Caller cfg).Safe (α := α) (fun n => fallible (watchedEffect cfg joinWatch n))

theorem safe_bystander {p : Program IdentityStatement (fun q => Option q.Reply) α}
    {post : α → IdentityState × JoinLog Caller → Prop} (hp : p.Asks fun q => q.approves = false)
    (hw : Idle n w.2) (hpo : ∀ a w, post a w) : JoinsSafely cfg n c p post w := by
  refine Discipline.safe_of_keeps (fun w => ∀ t ∈ w.2.taken, t.session ≠ n)
    (fun w w' hw hre t ht hn => hw t (hre.taken t ht hn) hn)
    (fun q input w r w' hq hinv hw hca hexe => ?_) (fun a w _ => hpo a w) hp hw.taken
  cases fallible_case hexe with
  | failed => exact ⟨.refl hinv, hw⟩
  | @effect x _ _ he _ =>
    refine ⟨keeps_handover hinv ⟨?_, ?_, fun _ _ _ t ht hn => absurd hn (hw t ht), ?_⟩ he, ?_⟩
    · rintro device payload rfl
      exact hca
    · rintro device rfl
      cases hq
    · rintro device value rfl
      cases hq
    · obtain ⟨-, hno⟩ := noted_eq_some he
      rw [hno]
      show ∀ t ∈ (noteJoin n q x w.1 w.2).taken, t.session ≠ n
      rw [noteJoin_taken]
      · exact hw
      · rintro device rfl
        cases hq

theorem safe_checkJoinRequestStatus_handover {pendingDeviceId : String} (hw : Idle n w.2) :
    JoinsSafely cfg n c
      (checkJoinRequestStatus pendingDeviceId).run (onOk fun status w => ∀ tokens, status = .approved tokens →
        Handable c.1 tokens.accessToken.jti w.2) w := by
  refine safe_then (fun _ w => Idle n w.2) (safe_ensure (fun _ => hw) fun _ => trivial) fun _ w hw => ?_
  refine safe_then (fun value w => Idle n w.2 ∧ ∀ v ∈ value, Handable c.1 v.accessToken.jti w.2)
    (safe_effect (fun w => Idle n w.2) Idle.stable hw (fun _ => trivial)
      fun {input w x w'} hinv hw hcar he => ?_) fun value w hw => ?_
  · refine ⟨keeps_handover hinv (proper_of_aside rfl) he, trivial, ?_⟩
    obtain ⟨hg, hno⟩ := noted_eq_some he
    obtain ⟨rfl, -⟩ := Prod.mk.inj (some.inj hg)
    rw [hno]
    refine ⟨hw, fun value hva => ?_⟩
    obtain ⟨hn, hca⟩ := hcar value hva
    obtain ⟨cell, hce, -, rfl⟩ := get_eq_some_iff.mp hva
    exact ⟨hinv.tokens.approved _ cell hce, hn, hca⟩
  · cases value with
    | some value =>
      intro tokens hto
      cases hto
      exact hw.2 value rfl
    | none =>
      refine safe_then (fun _ _ => True) (safe_effect (fun _ => True) (fun _ _ => trivial) trivial
        (fun _ => trivial) fun hinv _ _ he =>
          ⟨keeps_handover hinv (proper_of_aside rfl) he, trivial, trivial⟩) ?_
      intro payload w _ tokens hto
      split at hto <;> cases hto

/-! ### An approval step by step -/

/-- The session has taken a request with this payload, which the caller has submitted; its access
token, once it is signed, is not stored. -/
structure Approving (n : Nat) (caller : Caller) (device : String) (payload : Bytes)
    (token : Option String) (g : JoinLog Caller) : Prop where
  only : ∀ t ∈ g.taken, t.session = n → ∃ sub, t.first = some sub ∧ sub.device = device ∧
    sub.payload = payload ∧ sub.caller = some caller
  made : ∀ jti ∈ token, (jti, n) ∈ g.made
  unstored : ∀ jti ∈ token, jti ∉ g.stored

variable {device : String} {payload : Bytes} {token : Option String}

theorem Approving.stable (h : Approving n c.1 device payload token w.2)
    (hre : (joinHandover cfg).rely n c w w') : Approving n c.1 device payload token w'.2 :=
  ⟨fun t ht hn => h.only t (hre.taken t ht hn) hn, fun jti hjt => hre.signed _ (h.made jti hjt),
    fun jti hjt => hre.stored jti (h.made jti hjt) (h.unstored jti hjt)⟩

theorem safe_aside_handover {p : IdentityHandler α} (hp : p.run.Asks fun q => q.isAside = true)
    (hw : Approving n c.1 device payload token w.2) : JoinsSafely cfg n c p.run
      (onOk fun _ w => Approving n c.1 device payload token w.2) w := by
  refine Discipline.safe_of_keeps (fun w => Approving n c.1 device payload token w.2)
    (fun _ _ => Approving.stable) (fun q input w r w' hq hinv hw hca hexe => ?_)
    (fun r w hw => ?_) hp hw
  · cases fallible_case hexe with
    | failed => exact ⟨.refl hinv, hw⟩
    | @effect x _ _ he _ =>
      refine ⟨keeps_handover hinv (proper_of_aside hq) he, ?_⟩
      obtain ⟨-, hno⟩ := noted_eq_some he
      have hpr : Proper cfg n q w := proper_of_aside hq
      have ha : Adds n w.2 (noteJoin n q x w.1 w.2) := adds_noteJoin hpr
      rw [hno]
      refine ⟨fun t ht => ?_, fun jti hjt => ha.signed _ (hw.made jti hjt), fun jti hjt hst => ?_⟩
      · refine hw.only t ?_
        rwa [← noteJoin_taken (n := n) (x := x) (s := w.1)]
        rintro device rfl
        cases hq
      · refine hw.unstored jti hjt ?_
        rwa [← noteJoin_stored (n := n) (x := x) (s := w.1)]
        rintro device value rfl
        cases hq
  · cases r with
    | ok _ => exact hw
    | error _ => trivial

theorem proper_consumeJoin (hw : Idle n w.2) : Proper cfg n (.consumeJoin device) w where
  store _ _ heq := by cases heq
  take _ _ := ⟨hw.created, hw.made⟩
  create _ _ heq := by cases heq
  approve _ _ heq := by cases heq

variable {user : Uuid}

theorem proper_createDevice {data : CreateDeviceData} (h : ∀ t ∈ w.2.taken, t.session = n →
      ∃ sub, t.first = some sub ∧ sub.device = data.deviceId ∧ Carries cfg sub data) :
    Proper cfg n (.createDevice data user) w where
  store _ _ heq := by cases heq
  take _ heq := by cases heq
  create _ _ heq := by
    cases heq
    exact h
  approve _ _ heq := by cases heq

variable {deviceId : String}

theorem proper_storeApproved {value : JoinApproved}
    (h : (value.accessToken.jti, n) ∈ w.2.made) : Proper cfg n (.storeApproved deviceId value) w where
  store _ _ heq := by cases heq
  take _ heq := by cases heq
  create _ _ heq := by cases heq
  approve _ _ heq := by
    cases heq
    exact h

theorem safe_consumeJoin_handover {e : Status} (hw : Idle n w.2) : JoinsSafely cfg n c
      (statement (.consumeJoin device) e).run
      (onOk fun stored w => ∀ payload ∈ stored, Approving n c.1 device payload none w.2) w := by
  refine safe_effect (fun w => Idle n w.2) Idle.stable hw (fun _ => trivial) fun {input w x w'} hinv hw hca he => ?_
  refine ⟨keeps_handover hinv (proper_consumeJoin hw) he, trivial, fun payload hp => ?_⟩
  obtain ⟨hg, hno⟩ := noted_eq_some he
  obtain ⟨hre, -⟩ := Prod.mk.inj (some.inj hg)
  refine ⟨fun t ht hn => ?_, nofun, nofun⟩
  -- The request that was read is the first submission of the id.
  obtain ⟨sub, hf, hde, hs⟩ := hinv.requests.first_eq (hre.trans hp)
  rw [hno] at ht
  replace ht : t ∈ if x.isSome then ⟨n, device, w.2.firstPending device w.1.now⟩ :: w.2.taken
    else w.2.taken := ht
  rw [hp, isSome_some, if_pos rfl] at ht
  rcases mem_cons.mp ht with rfl | ht
  · exact ⟨sub, hf, hde, hs, hca sub hf⟩
  · exact absurd hn (hw.taken t ht)

theorem safe_createDevice_handover {data : CreateDeviceData} {word : String}
    {join : JoinRequestData} {req : ApproveJoinRequest} (hjo : decodeStored cfg payload = some join)
    (hda : data = approvedDevice cfg req join) (hw : Approving n c.1 req.pendingDeviceId payload token w.2) :
    JoinsSafely cfg n c (createDevice data user word).run
      (onOk fun _ w => Approving n c.1 req.pendingDeviceId payload token w.2) w := by
  refine safe_then (fun _ w => Approving n c.1 req.pendingDeviceId payload token w.2)
    (safe_effect (fun w => Approving n c.1 req.pendingDeviceId payload token w.2) Approving.stable hw
      (fun _ => trivial) fun {input w x w'} hinv hw hca he => ?_)
    fun _ w hw => safe_check_mapError (fun _ _ => hw) trivial
  have hpr : Proper cfg n (.createDevice data user) w := by
    refine proper_createDevice fun t ht hn => ?_
    obtain ⟨sub, hf, hde, rfl, -⟩ := hw.only t ht hn
    subst hda
    exact ⟨sub, hf, hde, join, hjo, rfl, rfl, rfl, rfl⟩
  refine ⟨keeps_handover hinv hpr he, trivial, ?_⟩
  obtain ⟨-, hno⟩ := noted_eq_some he
  have ha : Adds n w.2 (noteJoin n (.createDevice data user) x w.1 w.2) := adds_noteJoin hpr
  rw [hno]
  refine ⟨fun t ht => hw.only t ?_, fun jti hjt => ha.signed _ (hw.made jti hjt),
    fun jti hjt hst => hw.unstored jti hjt ?_⟩
  · exact noteJoin_taken (x := x) (fun _ heq => by cases heq) ▸ ht
  · exact noteJoin_stored (x := x) (fun _ _ heq => by cases heq) ▸ hst

theorem safe_signToken_handover {e : Status} (hw : Approving n c.1 device payload none w.2) :
    JoinsSafely cfg n c
      (statement (.signToken false user deviceId) e).run
      (onOk fun token w => Approving n c.1 device payload (some token.jti) w.2) w := by
  refine safe_effect (fun w => Approving n c.1 device payload none w.2) Approving.stable hw
    (fun _ => trivial) fun {input w x w'} hinv hw hca he => ?_
  refine ⟨keeps_handover hinv (proper_of_aside rfl) he, trivial, ?_⟩
  obtain ⟨hs, hno⟩ := noted_eq_some he
  rw [hno]
  refine ⟨hw.only, fun jti hjt => ?_, fun jti hjt hst => ?_⟩
  · cases hjt
    exact mem_cons_self
  · cases hjt
    obtain ⟨k, hk⟩ := hinv.tokens.stored _ hst
    have ho := hinv.tokens.signed _ hk
    simp only [IdentityState.effect] at hs
    split at hs
    · split at hs
      · cases hs
      · rename_i hn
        obtain ⟨rfl, -⟩ := Prod.mk.inj (some.inj hs)
        exact hn ho
    · cases hs

theorem safe_linkTokens_handover {userId deviceId : String} (hw : Approving n c.1 device payload none w.2) :
    JoinsSafely cfg n c (linkTokens user userId deviceId).run
      (onOk fun tokens w => Approving n c.1 device payload (some tokens.accessToken.jti) w.2) w := by
  refine safe_then _ (safe_signToken_handover hw) fun accessToken w hw => ?_
  refine safe_then _ (safe_aside_handover (asks_demand rfl) hw) fun refreshToken w hw => ?_
  refine safe_then _ (safe_aside_handover
    (asks_mapErr (asks_storeRefreshToken (fun _ => id) _ _)) hw) fun _ w hw => ?_
  exact hw

theorem safe_storeApproved_handover {value : JoinApproved} {e : Status}
    (hw : Approving n c.1 device payload (some value.accessToken.jti) w.2) : JoinsSafely cfg n c
      (statement (.storeApproved deviceId value) e).run
      (onOk fun _ w => Handable c.1 value.accessToken.jti w.2) w := by
  refine safe_effect (fun w => Approving n c.1 device payload (some value.accessToken.jti) w.2)
    Approving.stable hw (fun _ => trivial) fun {input w x w'} hinv hw hcar he => ?_
  have hma := hw.made _ rfl
  refine ⟨keeps_handover hinv (proper_storeApproved hma) he, trivial, ?_⟩
  obtain ⟨-, hno⟩ := noted_eq_some he
  rw [hno]
  refine ⟨mem_cons_self, fun hre => ?_, fun t ht hm => ?_⟩
  · obtain ⟨r, hr, heq⟩ := mem_map.mp hre
    exact hw.unstored _ rfl (heq ▸ hinv.tokens.returned r hr)
  · have hn : t.session = n := (Prod.mk.inj (hinv.tokens.maker _ hm _ hma rfl)).2
    obtain ⟨sub, hf, -, -, hca⟩ := hw.only t ht hn
    rw [hf]
    exact hca

theorem safe_approveJoinRequest_handover {sub : String} {req : ApproveJoinRequest} (hw : Idle n w.2) :
    JoinsSafely cfg n c (approveJoinRequest cfg sub req).run
      (onOk fun tokens w => Handable c.1 tokens.accessToken.jti w.2) w := by
  refine safe_then (fun _ w => Idle n w.2) (safe_ensure (fun _ => hw) fun _ => trivial) fun _ w hw => ?_
  split
  · trivial
  · refine safe_then _ (safe_consumeJoin_handover hw) fun stored w hw => ?_
    split
    · trivial
    · rename_i payload
      split
      · trivial
      · rename_i join hjo
        have hw := hw payload rfl
        refine safe_then _ (safe_aside_handover (asks_deviceMissing (fun _ => id) _) hw) fun _ w hw => ?_
        refine safe_then (fun _ w => Approving n c.1 req.pendingDeviceId payload none w.2)
          (safe_check (fun _ _ => hw) trivial) fun _ w hw => ?_
        refine safe_then _ (safe_createDevice_handover hjo rfl hw) fun _ w hw => ?_
        refine safe_then _ (safe_linkTokens_handover hw) fun tokens w hw => ?_
        exact safe_then _ (safe_storeApproved_handover hw) fun _ w hh => hh

/-! ### Every run -/

theorem safe_identityBody_handover (hw : Idle n w.2) : JoinsSafely cfg n c
      (identityBody cfg c.2 w.1) ((joinHandover cfg).Ends (watchedEnd joinWatch) n c) w := by
  obtain ⟨caller, call⟩ := c
  -- An answer that hands nothing out ends the call well.
  have hpl : ∀ {answer : IdentityAnswer} {w}, answer.handsOut = none →
      (joinHandover cfg).Ends (watchedEnd joinWatch) n (caller, call) answer w := by
    intro answer w hno hinv
    refine keeps_finishJoin hinv fun jti hjt => ?_
    rw [hno] at hjt
    cases hjt
  have hby : ∀ {β E : Type} {p : Fallible IdentityStatement IdentityStatement.Reply E β}
      {ok : β → IdentityAnswer} {err : E → IdentityAnswer},
      (p.run.Asks fun q => q.approves = false) → (∀ a, (ok a).handsOut = none) →
      (∀ e, (err e).handsOut = none) →
      JoinsSafely cfg n (caller, call)
        (conclude ok err p) ((joinHandover cfg).Ends (watchedEnd joinWatch) n (caller, call)) w := by
    intro β E p ok err hp hok her
    refine safe_conclude (safe_bystander hp hw fun r w => ?_)
    cases r with
    | ok a => exact hpl (hok a)
    | error e => exact hpl (her e)
  cases call with
  | recover req =>
    exact hby (asks_recoverAccount not_approves_of_aside (fun _ _ => rfl) (fun _ => rfl)
      (fun _ _ _ _ _ _ _ _ => rfl) (fun _ _ => rfl) fun _ => rfl) (fun _ => rfl) fun _ => rfl
  | confirmLink req =>
    exact hby (asks_confirmDeviceLink not_approves_of_aside fun _ _ _ _ _ _ => rfl) (fun _ => rfl) fun _ => rfl
  | submitJoin req =>
    exact hby (asks_submitJoinRequest not_approves_of_aside fun _ _ => rfl) (fun _ => rfl) fun _ => rfl
  | approveJoin sub req =>
    refine safe_conclude ((safe_approveJoinRequest_handover hw).mono fun r w hr => ?_)
    cases r with
    | ok tokens =>
      refine fun hinv => keeps_finishJoin hinv fun jti hjt => ?_
      cases hjt
      exact hr
    | error status => exact hpl rfl
  | checkJoin device =>
    refine safe_conclude ((safe_checkJoinRequestStatus_handover hw).mono fun r w hr => ?_)
    cases r with
    | ok status =>
      refine fun hinv => keeps_finishJoin hinv fun jti hjt => ?_
      cases status with
      | approved tokens =>
        cases hjt
        exact hr tokens rfl
      | pending => cases hjt
      | expired => cases hjt
    | error status => exact hpl rfl
  | register ip req =>
    exact hby (asks_registerDevice not_approves_of_aside (fun _ _ => rfl) fun _ _ => rfl)
      (fun _ => rfl) fun _ => rfl
  | issueChallenge challenge difficulty ip ttl =>
    exact hby (asks_demand rfl) (fun _ => rfl) fun _ => rfl

/-- In every run in which an id is submitted only while it is free, approved and asked for only by
its submitter, and the tokens are asked for only while they have not been handed out: the device
that an approval creates has the keys of the first submission, and the tokens go to its caller,
once. -/
theorem join_requests_in_one_hand (cfg : IdentityConfig) {as : List (WatchedAction (Caller × IdentityCall))}
    {pool : WatchedPool (Caller × IdentityCall) (JoinLog Caller)}
    (hrequests : ∀ device, s.joinRequests (joinRequestKey device) = none)
    (happrovals : ∀ k, s.joinApproved k = none)
    (hcareful : Along (watchedStep cfg joinWatch) (joinHandover cfg).Careful (.init (s, .empty)) as)
    (hrun : run (watchedStep cfg joinWatch) (.init (s, .empty)) as = some pool) :
    (∀ t ∈ pool.store.2.taken, ∀ data, (t.session, data) ∈ pool.store.2.created →
      ∃ sub, t.first = some sub ∧ sub.device = data.deviceId ∧ Carries cfg sub data) ∧
    (∀ r ∈ pool.store.2.returned, ∀ t ∈ pool.store.2.taken, (r.2, t.session) ∈ pool.store.2.made →
      t.first.bind Submission.caller = some r.1) ∧ (pool.store.2.returned.map Prod.snd).Nodup := by
  have hinit : JoinInv cfg (s, (.empty : JoinLog Caller)) := by
    refine ⟨⟨nofun, fun device c hc => ?_, nofun⟩, ⟨nofun, nofun, nofun, nofun, fun k c hc => ?_, nofun, nofun,
      .nil⟩⟩
    · cases (hrequests device).symm.trans hc
    · cases (happrovals k).symm.trans hc
  have hinv := watched_run_invariant (D := joinHandover cfg)
    (fun _ _ _ _ hidle _ => safe_identityBody_handover hidle) (fun ms w hinv => ?_) hinit
    (fun _ => ⟨nofun, nofun, nofun⟩) hcareful hrun
  · exact ⟨hinv.tokens.keys, hinv.tokens.submitter, hinv.tokens.once⟩
  · exact ⟨⟨hinv.requests.tick (Nat.le_add_right _ _), hinv.tokens⟩, fun _ => id, fun _ _ => .refl⟩

/-! ### A request in one hand, and one that is taken over -/

attribute [reducible] joinHandover

instance decidableHandoverCare (c : Nat × IdentityCall) (q : IdentityStatement) (input : Input Pick)
    (w : IdentityState × JoinLog Nat) : Decidable ((joinHandover cfg).care c q input w) := by
  cases q <;> infer_instance

def joinAs (deviceId : String) (b : UInt8) : IdentityCall :=
  .submitJoin ⟨deviceId, ⟨replicate 16 b, ""⟩, ⟨replicate 32 0, ""⟩, ⟨[0], ""⟩,
    ⟨replicate 64 0, ""⟩, "", ""⟩

def callAs (caller : Nat) (call : IdentityCall) (picks : List Pick) :
    List (WatchedAction (Nat × IdentityCall)) :=
  .start (caller, call) :: picks.map fun pick => .step 0 ⟨.ok, pick⟩

def approveAs (caller : Nat) (deviceId access refresh : String) :
    List (WatchedAction (Nat × IdentityCall)) :=
  callAs caller (.approveJoin demoUser.toStr ⟨deviceId, ""⟩)
    [.none, .none, .none, .jti access, .jti refresh, .none, .none, .none, .none]

/-- What is to be seen of a run: the caller and the identity key of the submissions that the
approvals should have taken, the identity keys of the devices that were created, and who got which
token. -/
structure JoinOutcome where
  first : List (Option (Option Nat × Option UInt8))
  created : List (Option UInt8)
  returned : List (Nat × String)
deriving DecidableEq

def joinOutcome (pool : WatchedPool (Nat × IdentityCall) (JoinLog Nat)) : JoinOutcome where
  first := pool.store.2.taken.map fun t => t.first.map fun sub =>
    (sub.caller, (decodeStored demoConfig sub.payload).bind fun join => join.identityPublic.head?)
  created := pool.store.2.created.map fun e => e.2.identityPublic.head?
  returned := pool.store.2.returned

/-- Two callers submit, and each approves their own request, the second one first. -/
theorem join_requests_in_one_hand_demo :
    ∃ pool, run (watchedStep demoConfig joinWatch) (.init (demoAccounts, .empty))
        (callAs 0 (joinAs "d" 1) [.none, .none] ++ callAs 1 (joinAs "e" 2) [.none, .none] ++
          approveAs 1 "e" "a" "b" ++ approveAs 0 "d" "f" "g") = some pool ∧
      joinOutcome pool = ⟨[some (some 0, some 1), some (some 1, some 2)], [some 1, some 2],
        [(0, "f"), (1, "a")]⟩ ∧
      (∀ t ∈ pool.store.2.taken, ∀ data, (t.session, data) ∈ pool.store.2.created →
        ∃ sub, t.first = some sub ∧ sub.device = data.deviceId ∧ Carries demoConfig sub data) ∧
      (∀ r ∈ pool.store.2.returned, ∀ t ∈ pool.store.2.taken, (r.2, t.session) ∈ pool.store.2.made →
        t.first.bind Submission.caller = some r.1) ∧ (pool.store.2.returned.map Prod.snd).Nodup :=
  reaches_with (by decide +kernel) fun _ hrun _ =>
    join_requests_in_one_hand demoConfig (fun _ => rfl) (fun _ => rfl) (by decide +kernel) hrun

def takenOver : List (WatchedAction (Nat × IdentityCall)) :=
  callAs 0 (joinAs "d" 1) [.none, .none] ++ callAs 1 (joinAs "d" 2) [.none, .none] ++
    approveAs 2 "d" "a" "b" ++ callAs 1 (.checkJoin "d") [.none]

/-- The device has the keys of the second submission, and two callers have the tokens, neither of
whom is the first submitter. -/
theorem join_request_taken_over :
    ∃ pool, run (watchedStep demoConfig joinWatch) (.init (demoAccounts, .empty)) takenOver = some pool ∧
      joinOutcome pool = ⟨[some (some 0, some 1)], [some 2], [(1, "a"), (2, "a")]⟩ ∧
      (∃ r ∈ pool.store.2.returned, ∃ t ∈ pool.store.2.taken, (r.2, t.session) ∈ pool.store.2.made ∧
        t.first.bind Submission.caller ≠ some r.1) ∧ ¬(pool.store.2.returned.map Prod.snd).Nodup := by
  obtain ⟨pool, hrun, houtcome, hstranger⟩ := reaches (watchedStep demoConfig joinWatch) (.init
    (demoAccounts, .empty)) takenOver (fun pool => joinOutcome pool = ⟨[some (some 0, some 1)], [some 2], [(1,
    "a"), (2, "a")]⟩ ∧ ∃ r ∈ pool.store.2.returned, ∃ t ∈ pool.store.2.taken, (r.2, t.session) ∈ pool.store.2.made
    ∧ t.first.bind Submission.caller ≠ some r.1) (by decide +kernel)
  refine ⟨pool, hrun, houtcome, hstranger, ?_⟩
  have hreturned : pool.store.2.returned = [(1, "a"), (2, "a")] := congrArg JoinOutcome.returned houtcome
  rw [hreturned]
  decide

end ConstructServer.Identity
