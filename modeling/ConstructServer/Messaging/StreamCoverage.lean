import ConstructServer.Messaging.LiveStream

/-!
# The live stream passes over nothing while ids are ordered

In every state of a run whose writes respect `Ordered`, every message for the device was sent, or
has a copy after the positions the next reads start from; and the same holds for the position the
client would resume from after any of the responses on their way to it.
-/

namespace ConstructServer.Messaging

open Queue Redis Collections Machine List

variable {c : LiveReader} {s : LiveState}

section

variable {l : List (StreamId × MessageEnvelope)} {id : StreamId} {env : MessageEnvelope}

theorem mem_asDelivered_some : (id, some env) ∈ asDelivered c l ↔ (id, env) ∈ l ∧
    env.recipientId = c.userId := by
  simp only [asDelivered, List.mem_map, Prod.mk.injEq, Prod.exists]
  constructor
  · rintro ⟨i, e, hm, rfl, h⟩
    split_ifs at h with hre
    obtain rfl := Option.some.inj h
    exact ⟨hm, hre⟩
  · rintro ⟨hm, hre⟩
    exact ⟨id, env, hm, rfl, if_pos hre⟩

theorem sorted_asDelivered (h : Sorted l) : Sorted (asDelivered c l) := by
  rw [Sorted, asDelivered, List.pairwise_map]
  exact h

theorem exists_of_mem_asDelivered {e : ReadEntry} (h : e ∈ asDelivered c l) : ∃ x ∈ l, x.1 = e.1 := by
  obtain ⟨x, hx, rfl⟩ := List.mem_map.mp h
  exact ⟨x, hx, rfl⟩

end

namespace LiveState

def top (s : LiveState) : StreamId := max s.device.lastId s.user.lastId

theorem le_top_of_mem_device {e : ReadEntry} (h : e ∈ s.deviceEntries c) : e.1 ≤ s.top := by
  obtain ⟨x, hx, heq⟩ := exists_of_mem_asDelivered h
  rw [← heq]
  exact (s.device.le_lastId x hx).trans (le_max_left _ _)

theorem le_top_of_mem_user {e : ReadEntry} (h : e ∈ s.userEntries c) : e.1 ≤ s.top := by
  obtain ⟨x, hx, heq⟩ := exists_of_mem_asDelivered h
  rw [← heq]
  exact (s.user.le_lastId x hx).trans (le_max_right _ _)

theorem mem_keysOf {l : List ReadEntry} {k : MessageDedupKey} : k ∈ keysOf c l ↔ Delivers c.sha256 l k := by
  simp only [keysOf, List.mem_filterMap, Option.map_eq_some_iff, Prod.exists, Delivers]
  constructor
  · rintro ⟨id, o, hm, env, rfl, hk⟩
    exact ⟨id, env, hm, hk⟩
  · rintro ⟨id, env, hm, hk⟩
    exact ⟨id, _, hm, env, rfl, hk⟩

theorem mem_messagesFor {k : MessageDedupKey} : k ∈ s.messagesFor c ↔
      Waiting c.sha256 c.device (s.deviceEntries c) (s.userEntries c) k 0 0 := by
  rw [messagesFor, List.mem_append, mem_keysOf, mem_keysOf]
  constructor
  · rintro (⟨id, env, hm, hk⟩ | ⟨id, env, hm, hk⟩)
    · refine .inl ⟨id, env, hm, hk, ?_⟩
      exact s.device.zero_lt _ (mem_asDelivered_some.mp hm).1
    · obtain ⟨hm, ho⟩ := mem_ownEntries.mp hm
      refine .inr ⟨id, env, hm, ho, hk, ?_⟩
      exact s.user.zero_lt _ (mem_asDelivered_some.mp hm).1
  · rintro (⟨id, env, hm, hk, -⟩ | ⟨id, env, hm, ho, hk, -⟩)
    · exact .inl ⟨id, env, hm, hk⟩
    · exact .inr ⟨id, env, mem_ownEntries.mpr ⟨hm, ho⟩, hk⟩

end LiveState

/-- Every message for the device is among the responses `done`, or has a copy in `device` or in
the user stream after the positions `d` and `u`. -/
def Covers (c : LiveReader) (s : LiveState) (device : List ReadEntry) (done : List Response)
    (d u : StreamId) : Prop :=
  ∀ k ∈ s.messagesFor c, k ∈ done.map (fun r => MessageDedupKey.forEnvelope c.sha256 r.2) ∨
    Waiting c.sha256 c.device device (s.userEntries c) k d u

def cursorOf (done : List Response) : StreamId := (done.getLast?.map Prod.fst).getD 0

def restPos (s : LiveState) (rest : List ReadEntry) : StreamId :=
  (rest.getLast?.map Prod.fst).getD s.devicePos

def restUserPos (s : LiveState) (page : MailboxPage) (rest : List ReadEntry) : StreamId :=
  max (page.userExaminedThrough.getD (s.userStreamId.getD 0)) (restPos s rest)

structure Delivering (c : LiveReader) (s : LiveState) (start : List MessageDedupKey)
    (page : MailboxPage) (rest : List ReadEntry) : Prop where
  sorted : rest.Pairwise (StableLE Prod.fst OrphansLast)
  source : ∀ id env, (id, some env) ∈ rest → (id, some env) ∈ s.deviceEntries c ∨
    (id, some env) ∈ s.userEntries c ∧ isSibling c.device env = false ∧
      s.userStreamId.getD 0 < id
  ahead : ∀ id env, (id, some env) ∈ rest →
    MessageDedupKey.forEnvelope c.sha256 env ∈ s.delivered c ∨ s.devicePos < id
  same : ∀ id env env', (id, some env) ∈ rest → (id, some env') ∈ rest →
    MessageDedupKey.forEnvelope c.sha256 env = .forEnvelope c.sha256 env'
  rest_le : ∀ e ∈ rest, s.devicePos ≤ e.1 ∧ e.1 ≤ s.top
  examined_le : ∀ x ∈ page.userExaminedThrough, x ≤ s.top
  start_sub : ∀ k ∈ start, k ∈ s.messagesFor c
  cover : ∃ w, restUserPos s page rest ≤ w ∧ s.userStreamId.getD 0 ≤ w ∧ w ≤ s.top ∧
    ∀ k ∈ s.messagesFor c, k ∈ s.delivered c ∨ Delivers c.sha256 rest k ∨
      Waiting c.sha256 c.device (s.deviceEntries c) (s.userEntries c) k (restPos s rest) w
  complete : page.hasMore = false → ∀ k ∈ start, k ∈ s.delivered c ∨ Delivers c.sha256 rest k

def PhaseInvariant (c : LiveReader) (s : LiveState) : Phase → Prop
  | .idle => Covers c s (s.deviceEntries c) (s.received ++ s.sent) s.devicePos s.userPos
  | .reading start =>
    Covers c s (s.deviceEntries c) (s.received ++ s.sent) s.devicePos s.userPos ∧
      ∀ k ∈ start, k ∈ s.messagesFor c
  | .readingUser start deviceMsgs =>
    -- Device entries that came after the device read are covered by their user copies.
    ∃ device, device <+: s.deviceEntries c ∧
      deviceMsgs = upTo device s.devicePos (2 * streamMailboxPage) ∧
      Covers c s device (s.received ++ s.sent) s.devicePos s.userPos ∧
      ∀ k ∈ start, k ∈ s.messagesFor c
  | .delivering start page rest _ _ => Delivering c s start page rest

structure LiveInvariant (c : LiveReader) (s : LiveState) : Prop where
  separated : Separated c.sha256 c.device (s.deviceEntries c) (s.userEntries c)
  answerable : ∀ e ∈ s.device.entries ++ s.user.entries, Answerable c e.2
  writing : ∀ env ∈ s.writing, ∃ id, (id, env) ∈ s.user.entries
  device_le : s.devicePos ≤ s.top
  user_le : s.userStreamId.getD 0 ≤ s.top
  response_le : ∀ r ∈ s.received ++ s.sent, r.1 ≤ s.top
  client : ∀ n ≤ s.sent.length, Covers c s (s.deviceEntries c) (s.received ++ s.sent.take n)
    (cursorOf (s.received ++ s.sent.take n)) (cursorOf (s.received ++ s.sent.take n))
  phase : PhaseInvariant c s s.phase
  finished : ∀ start ∈ s.finished, ∀ k ∈ start, k ∈ s.delivered c

section

variable {device device' : List ReadEntry} {done : List Response} {d u d' u' : StreamId}
  {k : MessageDedupKey}

theorem waiting_of_subset {user user' : List ReadEntry}
    (h : Waiting c.sha256 c.device device user k d u) (hde : device ⊆ device')
    (hu : user ⊆ user') : Waiting c.sha256 c.device device' user' k d u := by
  obtain ⟨id, env, hm, hr⟩ | ⟨id, env, hm, hr⟩ := h
  · exact .inl ⟨id, env, hde hm, hr⟩
  · exact .inr ⟨id, env, hu hm, hr⟩

theorem Covers.mono (h : Covers c s device done d u) (hd : d' ≤ d) (hu : u' ≤ u) :
    Covers c s device done d' u' :=
  fun k hk => (h k hk).imp_right fun hw => hw.mono hd hu

def written (s : LiveState) (now : UInt64) (device user : Stream MessageEnvelope)
    (writing : List MessageEnvelope) : LiveState :=
  { s with now, device, user, writing, finished := none }

/-- What a write does to the streams: a message that is new for the device gets an id that no
stream has reached, in the user stream unless no page is between its two reads. -/
structure Grows (c : LiveReader) (s t : LiveState) : Prop where
  device : s.deviceEntries c <+: t.deviceEntries c
  user : s.userEntries c ⊆ t.userEntries c
  top : s.top ≤ t.top
  fresh : ∀ k ∈ t.messagesFor c, k ∈ s.messagesFor c ∨
    UserCopy c.sha256 c.device (t.userEntries c) k s.top ∨
    DeviceCopy c.sha256 (t.deviceEntries c) k s.top ∧ s.phase.betweenReads = false

variable {t : LiveState}

theorem Grows.waiting (h : Grows c s t)
    (hw : Waiting c.sha256 c.device (s.deviceEntries c) (s.userEntries c) k d u) :
    Waiting c.sha256 c.device (t.deviceEntries c) (t.userEntries c) k d u :=
  waiting_of_subset hw h.device.subset h.user

theorem Grows.messagesFor (h : Grows c s t) (hk : k ∈ s.messagesFor c) : k ∈ t.messagesFor c :=
  LiveState.mem_messagesFor.mpr (h.waiting (LiveState.mem_messagesFor.mp hk))

theorem Grows.known_or_waiting (h : Grows c s t) (hk : k ∈ t.messagesFor c) (hd : d ≤ s.top)
    (hu : u ≤ s.top) : k ∈ s.messagesFor c ∨
      Waiting c.sha256 c.device (t.deviceEntries c) (t.userEntries c) k d u := by
  rcases h.fresh k hk with ho | ⟨id, env, hm, hown, hke, hlt⟩ | ⟨⟨id, env, hm, hke, hlt⟩, -⟩
  · exact .inl ho
  · exact .inr (.inr ⟨id, env, hm, hown, hke, lt_of_le_of_lt hu hlt⟩)
  · exact .inr (.inl ⟨id, env, hm, hke, lt_of_le_of_lt hd hlt⟩)

theorem Covers.grow (hco : Covers c s (s.deviceEntries c) done d u) (h : Grows c s t)
    (hd : d ≤ s.top) (hu : u ≤ s.top) : Covers c t (t.deviceEntries c) done d u := by
  intro k hk
  rcases h.known_or_waiting hk hd hu with ho | hw
  · exact (hco k ho).imp_right h.waiting
  · exact .inr hw

theorem Covers.grow_readingUser {start : List MessageDedupKey} {deviceMsgs : List ReadEntry}
    (hco : Covers c s device done d u) (h : Grows c s t)
    (hp : s.phase = .readingUser start deviceMsgs) (hu : u ≤ s.top) : Covers c t device done d u := by
  intro k hk
  rcases h.fresh k hk with ho | ⟨id, env, hm, hown, hke, hlt⟩ | ⟨-, hn⟩
  · exact (hco k ho).imp_right fun hw => waiting_of_subset hw (Subset.refl _) h.user
  · exact .inr (.inr ⟨id, env, hm, hown, hke, lt_of_le_of_lt hu hlt⟩)
  · rw [hp] at hn
    cases hn

variable {now : UInt64} {dev usr : Stream MessageEnvelope} {writing : List MessageEnvelope}
  {start : List MessageDedupKey} {page : MailboxPage} {rest : List ReadEntry}

theorem restPos_le_top (hpo : s.devicePos ≤ s.top) (hr : ∀ e ∈ rest, e.1 ≤ s.top) :
    restPos s rest ≤ s.top := by
  unfold restPos
  cases hl : rest.getLast? with
  | none => exact hpo
  | some e => exact hr e (List.mem_of_getLast? hl)

theorem Delivering.grow (h : Delivering c s start page rest)
    (hg : Grows c s (written s now dev usr writing)) (hpo : s.devicePos ≤ s.top) :
    Delivering c (written s now dev usr writing) start page rest where
  sorted := h.sorted
  source id env hm :=
    (h.source id env hm).imp (hg.device.subset ·) (And.imp_left (hg.user ·))
  ahead := h.ahead
  same := h.same
  rest_le e he := ⟨(h.rest_le e he).1, (h.rest_le e he).2.trans hg.top⟩
  examined_le x hx := (h.examined_le x hx).trans hg.top
  start_sub k hk := hg.messagesFor (h.start_sub k hk)
  cover := by
    obtain ⟨w, hen, hu, hw, hco⟩ := h.cover
    refine ⟨w, hen, hu, hw.trans hg.top, fun k hk => ?_⟩
    rcases hg.known_or_waiting hk (restPos_le_top hpo fun e he => (h.rest_le e he).2) hw with
      ho | hwa
    · exact (hco k ho).imp_right (Or.imp_right hg.waiting)
    · exact .inr (.inr hwa)
  complete := h.complete

theorem LiveInvariant.phase_grow (hinv : LiveInvariant c s)
    (hg : Grows c s (written s now dev usr writing)) :
    PhaseInvariant c (written s now dev usr writing) s.phase := by
  have hp := hinv.phase
  have hpo := hinv.device_le
  have hu : s.userPos ≤ s.top := max_le hinv.user_le hpo
  cases heq : s.phase with
  | idle =>
    rw [heq] at hp
    exact Covers.grow hp hg hpo hu
  | reading start =>
    rw [heq] at hp
    exact ⟨hp.1.grow hg hpo hu, fun k hk => hg.messagesFor (hp.2 k hk)⟩
  | readingUser start deviceMsgs =>
    rw [heq] at hp
    obtain ⟨device, hde, hre, hco, hst⟩ := hp
    exact ⟨device, hde.trans hg.device, hre, hco.grow_readingUser hg heq hu, fun k hk => hg.messagesFor (hst k hk)⟩
  | delivering start page rest deviceBefore userBefore =>
    rw [heq] at hp
    exact Delivering.grow hp hg hpo

theorem cursorOf_le {done : List Response} {p : StreamId} (h : ∀ r ∈ done, r.1 ≤ p) : cursorOf done ≤ p := by
  unfold cursorOf
  cases hl : done.getLast? with
  | none => exact StreamId.zero_le p
  | some r => exact h r (List.mem_of_getLast? hl)

theorem mem_of_mem_take {r : Response} {n : Nat} (h : r ∈ s.received ++ s.sent.take n) :
    r ∈ s.received ++ s.sent := by
  rw [List.mem_append] at h ⊢
  exact h.imp_right (List.mem_of_mem_take ·)

theorem LiveInvariant.grow (hinv : LiveInvariant c s) (hg : Grows c s (written s now dev usr writing))
    (hse : Separated c.sha256 c.device ((written s now dev usr writing).deviceEntries c)
      ((written s now dev usr writing).userEntries c))
    (han : ∀ e ∈ dev.entries ++ usr.entries, Answerable c e.2)
    (hw : ∀ env ∈ writing, ∃ id, (id, env) ∈ usr.entries) :
    LiveInvariant c (written s now dev usr writing) where
  separated := hse
  answerable := han
  writing := hw
  device_le := hinv.device_le.trans hg.top
  user_le := hinv.user_le.trans hg.top
  response_le r hr := (hinv.response_le r hr).trans hg.top
  client n hn := by
    have hle : cursorOf (s.received ++ s.sent.take n) ≤ s.top :=
      cursorOf_le fun r hr => hinv.response_le r (mem_of_mem_take hr)
    exact (hinv.client n hn).grow hg hle hle
  phase := hinv.phase_grow hg
  finished := by simp [written]

end

section

variable {id : StreamId} {env : MessageEnvelope} {writing : List MessageEnvelope}

theorem asDelivered_append_singleton (l : List (StreamId × MessageEnvelope)) :
    asDelivered c (l ++ [(id, env)]) =
      asDelivered c l ++ [(id, if env.recipientId = c.userId then some env else none)] := by
  simp [asDelivered]

theorem mem_asDelivered_append {l : List (StreamId × MessageEnvelope)} {id' : StreamId}
    {env' : MessageEnvelope} : (id', some env') ∈ asDelivered c (l ++ [(id, env)]) ↔
      (id', some env') ∈ asDelivered c l ∨ id' = id ∧ env' = env ∧ env.recipientId = c.userId := by
  simp only [mem_asDelivered_some, List.mem_append, List.mem_singleton, Prod.mk.injEq]
  constructor
  · rintro ⟨h | ⟨rfl, rfl⟩, hre⟩
    · exact .inl ⟨h, hre⟩
    · exact .inr ⟨rfl, rfl, hre⟩
  · rintro (⟨h, hre⟩ | ⟨rfl, rfl, hre⟩)
    · exact ⟨.inl h, hre⟩
    · exact ⟨.inr ⟨rfl, rfl⟩, hre⟩

theorem LiveInvariant.xaddUser (hinv : LiveInvariant c s) (hlt : s.user.lastId < id)
    (hde : s.device.lastId < id) (han : Answerable c env)
    (hw : ∀ env' ∈ writing, env' ∈ s.writing ∨ env' = env) :
    LiveInvariant c (written s s.now s.device (s.user.append id hlt env) writing) := by
  have hto : s.top < id := max_lt hde hlt
  refine hinv.grow ⟨List.prefix_rfl, ?_, ?_, ?_⟩ ?_ ?_ ?_
  · exact fun e he => List.mem_map.mpr <| by
      obtain ⟨x, hx, rfl⟩ := List.mem_map.mp he
      exact ⟨x, List.mem_append_left _ hx, rfl⟩
  · exact hto.le.trans (le_max_right _ _)
  · intro k hk
    rcases LiveState.mem_messagesFor.mp hk with hco | ⟨id', env', hm, hown, hke, -⟩
    · exact .inl (LiveState.mem_messagesFor.mpr (.inl hco))
    · rcases mem_asDelivered_append.mp hm with ho | ⟨rfl, rfl, -⟩
      · refine .inl (LiveState.mem_messagesFor.mpr (.inr ⟨id', env', ho, hown, hke, ?_⟩))
        exact s.user.zero_lt _ (mem_asDelivered_some.mp ho).1
      · exact .inr (.inl ⟨id', env', hm, hown, hke, hto⟩)
  · -- No entry of the device stream has the new id.
    intro id' e e' he he' hown
    rcases mem_asDelivered_append.mp he' with ho | ⟨rfl, -, -⟩
    · exact hinv.separated id' e e' he ho hown
    · exact absurd (s.device.le_lastId _ (mem_asDelivered_some.mp he).1) (not_le.mpr hde)
  · intro e he
    rcases List.mem_append.mp he with he | he
    · exact hinv.answerable e (List.mem_append_left _ he)
    · rcases mem_concat he with he | rfl
      · exact hinv.answerable e (List.mem_append_right _ he)
      · exact han
  · intro env' hen
    rcases hw env' hen with ho | rfl
    · obtain ⟨id', hm⟩ := hinv.writing env' ho
      exact ⟨id', List.mem_append_left _ hm⟩
    · exact ⟨id, List.mem_append_right _ (List.mem_singleton_self _)⟩

theorem LiveInvariant.xaddDevice (hinv : LiveInvariant c s) (hlt : s.device.lastId < id)
    (hen : env ∈ s.writing)
    (hot : ∀ e ∈ ownEntries c.device (s.userEntries c), e.1 = id → ∀ env' ∈ e.2,
      MessageDedupKey.forEnvelope c.sha256 env = .forEnvelope c.sha256 env')
    (hsi : isSibling c.device env → s.user.lastId < id ∧ s.phase.betweenReads = false)
    (hw : ∀ env' ∈ writing, env' ∈ s.writing) :
    LiveInvariant c (written s s.now (s.device.append id hlt env) s.user writing) := by
  obtain ⟨uid, hu⟩ := hinv.writing env hen
  refine hinv.grow ⟨?_, Subset.refl _, ?_, ?_⟩ ?_ ?_ ?_
  · exact ⟨_, (asDelivered_append_singleton s.device.entries).symm⟩
  · exact max_le_max_right _ hlt.le
  · intro k hk
    rcases LiveState.mem_messagesFor.mp hk with ⟨id', env', hm, hke, -⟩ | hco
    · rcases mem_asDelivered_append.mp hm with hol | ⟨rfl, rfl, hre⟩
      · refine .inl (LiveState.mem_messagesFor.mpr (.inl ⟨id', env', hol, hke, ?_⟩))
        exact s.device.zero_lt _ (mem_asDelivered_some.mp hol).1
      · -- The message was in the user stream already, unless that copy is for another device.
        cases ho : isSibling c.device env' with
        | false =>
          refine .inl (LiveState.mem_messagesFor.mpr (.inr ⟨uid, env', ?_, ho, hke, ?_⟩))
          · exact mem_asDelivered_some.mpr ⟨hu, hre⟩
          · exact s.user.zero_lt _ hu
        | true =>
          obtain ⟨haf, hp⟩ := hsi ho
          exact .inr (.inr ⟨⟨id', env', hm, hke, max_lt hlt haf⟩, hp⟩)
    · exact .inl (LiveState.mem_messagesFor.mpr (.inr hco))
  · intro id' e e' he he' ho
    rcases mem_asDelivered_append.mp he with hol | ⟨rfl, rfl, -⟩
    · exact hinv.separated id' e e' hol he' ho
    · exact hot _ (mem_ownEntries.mpr ⟨he', ho⟩) rfl e' rfl
  · intro e he
    rcases List.mem_append.mp he with he | he
    · rcases mem_concat he with he | rfl
      · exact hinv.answerable e (List.mem_append_left _ he)
      · exact hinv.answerable (uid, env) (List.mem_append_right _ hu)
    · exact hinv.answerable e (List.mem_append_right _ he)
  · exact fun env' h => hinv.writing env' (hw env' h)

end

section

variable {start : List MessageDedupKey} {page : MailboxPage} {e : ReadEntry}
  {rest : List ReadEntry} {device deviceMsgs : List ReadEntry}
  {order : IterOrder (StreamId × MessageEnvelope)}

theorem LiveInvariant.setPhase {phase : Phase} {finished : Option (List MessageDedupKey)}
    (hinv : LiveInvariant c s) (hp : PhaseInvariant c s phase)
    (hf : ∀ start ∈ finished, ∀ k ∈ start, k ∈ s.delivered c) : LiveInvariant c { s with phase, finished } where
  separated := hinv.separated
  answerable := hinv.answerable
  writing := hinv.writing
  device_le := hinv.device_le
  user_le := hinv.user_le
  response_le := hinv.response_le
  client := hinv.client
  phase := by
    -- No phase's own invariant reads the phase or the finished poll of the state.
    cases phase with
    | idle | reading | readingUser => exact hp
    | delivering start page rest deviceBefore userBefore =>
      exact ⟨hp.sorted, hp.source, hp.ahead, hp.same, hp.rest_le,
        hp.examined_le, hp.start_sub, hp.cover, hp.complete⟩
  finished := hf

theorem delivering_of_read (hinv : LiveInvariant c s) (hde : device <+: s.deviceEntries c)
    (hcov : Covers c s device (s.received ++ s.sent) s.devicePos s.userPos)
    (hst : ∀ k ∈ start, k ∈ s.messagesFor c)
    (hpa : page = pageAt c.sha256 c.device order device (s.userEntries c) s.devicePos s.userPos
      streamMailboxPage (2 * streamMailboxPage)) : Delivering c s start page page.entries := by
  have hpo : s.devicePos ≤ s.userPos := le_max_right _ _
  have hso : Sorted device := (sorted_asDelivered s.device.sorted).sublist hde.sublist
  have hu : Sorted (s.userEntries c) := sorted_asDelivered s.user.sorted
  have hse : Separated c.sha256 c.device device (s.userEntries c) :=
    fun id env env' h => hinv.separated id env env' (hde.subset h)
  have hme : ∀ x ∈ page.entries, x ∈ device ∧ s.devicePos < x.1 ∨
      x ∈ s.userEntries c ∧ s.userPos < x.1 := by
    intro x hx
    rw [hpa] at hx
    exact mem_pageAt_entries hx
  have hlt : ∀ x ∈ page.entries, s.devicePos < x.1 := by
    intro x hx
    rcases hme x hx with ⟨-, h⟩ | ⟨-, h⟩
    · exact h
    · exact lt_of_le_of_lt hpo h
  have hle : ∀ x ∈ page.entries, x.1 ≤ s.top := by
    intro x hx
    rcases hme x hx with ⟨h, -⟩ | ⟨h, -⟩
    · exact LiveState.le_top_of_mem_device (hde.subset h)
    · exact LiveState.le_top_of_mem_user h
  have he : ∀ x ∈ page.userExaminedThrough, x ≤ s.top := by
    intro x hx
    rw [hpa] at hx
    obtain ⟨-, y, hy, -, ⟨rfl, -⟩ | ⟨-, hxy⟩⟩ := userExaminedThrough_cases hx
    · exact LiveState.le_top_of_mem_user (mem_of_mem_upTo hy).1
    · exact hxy.le.trans (LiveState.le_top_of_mem_user (mem_of_mem_upTo hy).1)
  have hco : ∀ k ∈ s.messagesFor c, k ∈ s.delivered c ∨ Delivers c.sha256 page.entries k ∨
      page.hasMore = true ∧ Waiting c.sha256 c.device (s.deviceEntries c) (s.userEntries c) k
        (restPos s page.entries) (max s.userPos (restUserPos s page page.entries)) := by
    intro k hk
    refine (hcov k hk).imp_right fun hw => ?_
    rw [hpa]
    refine (hse.delivered_or_waiting_two order hso hu (by decide) (by decide) hpo
      (le_max_left _ _) hw).imp_right (And.imp_right fun hw => ?_)
    exact waiting_of_subset hw hde.subset (Subset.refl _)
  refine ⟨?_, ?_, fun id env h => .inr (hlt _ h), ?_, fun x hx => ⟨(hlt x hx).le, hle x hx⟩,
    he, hst, ⟨max s.userPos (restUserPos s page page.entries), ?_, ?_, ?_, ?_⟩, ?_⟩
  · rw [hpa]
    exact pairwise_keptEntries.sublist (List.take_sublist _ _)
  · intro id env h
    rw [hpa] at h
    rcases mem_merged_some (mem_page_entries h).1 with hm | ⟨hm, ho, -⟩
    · exact .inl (hde.subset (mem_of_mem_upTo hm).1)
    · obtain ⟨hm, hgt⟩ := mem_of_mem_upTo hm
      exact .inr ⟨hm, ho, lt_of_le_of_lt (le_max_left _ _) hgt⟩
  · intro id env env' h h'
    rw [hpa] at h h'
    rw [hse.eq_of_merged hso hu (mem_page_entries h).1 (mem_page_entries h').1]
  · exact le_max_right _ _
  · exact (le_max_left _ _).trans (le_max_left _ _)
  · have hr := restPos_le_top hinv.device_le hle
    have hgD : page.userExaminedThrough.getD (s.userStreamId.getD 0) ≤ s.top := by
      cases hx : page.userExaminedThrough with
      | none => exact hinv.user_le
      | some x => exact he x hx
    exact max_le (max_le hinv.user_le hinv.device_le) (max_le hgD hr)
  · exact fun k hk => (hco k hk).imp_right (Or.imp_right And.right)
  · intro hmo k hk
    rcases hco k (hst k hk) with h | h | ⟨h, -⟩
    · exact .inl h
    · exact .inr h
    · rw [hmo] at h
      cases h

def afterEntry (c : LiveReader) (s : LiveState) (e : ReadEntry) (phase : Phase) : LiveState :=
  { s with lastStreamId := some e.1, phase, sent := s.sent ++ LiveState.responseTo c e }

theorem restPos_afterEntry (phase : Phase) :
    restPos (afterEntry c s e phase) rest = restPos s (e :: rest) := by
  simp only [restPos, List.getLast?_cons]
  cases rest.getLast? <;> rfl

variable {env : MessageEnvelope}

theorem responseTo_of_mem {id : StreamId} (hinv : LiveInvariant c s)
    (h : (id, some env) ∈ s.deviceEntries c ∨ (id, some env) ∈ s.userEntries c) :
    LiveState.responseTo c (id, some env) = [(id, env)] := by
  have han : Answerable c env := by
    rcases h with h | h
    · exact hinv.answerable _ (List.mem_append_left _ (mem_asDelivered_some.mp h).1)
    · exact hinv.answerable _ (List.mem_append_right _ (mem_asDelivered_some.mp h).1)
  by_cases hre : env.messageType = .receipt
  · simp [LiveState.responseTo, han hre]
  · simp [LiveState.responseTo, hre]

theorem delivered_afterEntry (phase : Phase) : (afterEntry c s e phase).delivered c = s.delivered c ++
      (LiveState.responseTo c e).map fun r => MessageDedupKey.forEnvelope c.sha256 r.2 := by
  simp [afterEntry, LiveState.delivered]

theorem Delivering.head_or_lt (h : Delivering c s start page (e :: rest)) {id : StreamId}
    (hm : (id, some env) ∈ rest) : e.1 < id ∨ ∃ env', e = (id, some env') ∧
      MessageDedupKey.forEnvelope c.sha256 env' = .forEnvelope c.sha256 env := by
  rcases (List.pairwise_cons.mp h.sorted).1 _ hm with hlt | ⟨heq, hor⟩
  · exact .inl hlt
  · obtain ⟨id', _ | env'⟩ := e
    · cases hor rfl
    · obtain rfl : id' = id := heq
      exact .inr ⟨env', rfl, h.same id' env' env (by simp) (by simp [hm])⟩

variable {phase : Phase}

theorem Delivering.sent_or_rest (hinv : LiveInvariant c s)
    (h : Delivering c s start page (e :: rest)) {k : MessageDedupKey}
    (hk : k ∈ s.delivered c ∨ Delivers c.sha256 (e :: rest) k) :
    k ∈ (afterEntry c s e phase).delivered c ∨ Delivers c.sha256 rest k := by
  rw [delivered_afterEntry, List.mem_append]
  rcases hk with hk | ⟨id, env, hm, hke⟩
  · exact .inl (.inl hk)
  · rcases List.mem_cons.mp hm with rfl | hm
    · rw [responseTo_of_mem hinv ((h.source id env (by simp)).imp_right And.left)]
      exact .inl (.inr (by simp [hke]))
    · exact .inr ⟨id, env, hm, hke⟩

theorem Delivering.sent_or_lt (hinv : LiveInvariant c s) (h : Delivering c s start page (e :: rest))
    {id : StreamId}
    (hm : (id, some env) ∈ rest) :
    MessageDedupKey.forEnvelope c.sha256 env ∈ (afterEntry c s e phase).delivered c ∨ e.1 < id := by
  rcases h.head_or_lt hm with hlt | ⟨env', rfl, hk⟩
  · exact .inr hlt
  · rw [delivered_afterEntry, List.mem_append,
      responseTo_of_mem hinv ((h.source id env' (by simp)).imp_right And.left)]
    exact .inl (.inr (by simp [hk]))

theorem Delivering.deliver (hinv : LiveInvariant c s) (h : Delivering c s start page (e :: rest)) :
    Delivering c (afterEntry c s e phase) start page rest where
  sorted := (List.pairwise_cons.mp h.sorted).2
  source id env hm := h.source id env (List.mem_cons_of_mem _ hm)
  ahead id env hm := h.sent_or_lt hinv hm
  same id env env' hm hm' :=
    h.same id env env' (List.mem_cons_of_mem _ hm) (List.mem_cons_of_mem _ hm')
  rest_le x hx := ⟨((List.pairwise_cons.mp h.sorted).1 x hx).le,
    (h.rest_le x (List.mem_cons_of_mem _ hx)).2⟩
  examined_le := h.examined_le
  start_sub := h.start_sub
  cover := by
    obtain ⟨w, hen, hu, hw, hco⟩ := h.cover
    rw [restUserPos] at hen
    refine ⟨w, ?_, hu, hw, fun k hk => ?_⟩
    · rw [restUserPos, restPos_afterEntry]
      exact hen
    · rw [restPos_afterEntry, ← or_assoc]
      rcases or_assoc.mpr (hco k hk) with hk | hwa
      · exact .inl (h.sent_or_rest hinv hk)
      · exact .inr hwa
  complete hmo k hk := h.sent_or_rest hinv (h.complete hmo k hk)

theorem Delivering.le_restPos (h : Delivering c s start page rest) : s.devicePos ≤ restPos s rest := by
  unfold restPos
  cases hl : rest.getLast? with
  | none => exact le_rfl
  | some e => exact (h.rest_le e (List.mem_of_getLast? hl)).1

theorem Delivering.covers (h : Delivering c s start page rest) :
    Covers c s (s.deviceEntries c) (s.received ++ s.sent) s.devicePos s.userPos := by
  obtain ⟨w, hen, hu, -, hco⟩ := h.cover
  intro k hk
  rcases hco k hk with hse | ⟨id, env, hm, rfl⟩ | hw
  · exact .inl hse
  · rcases h.ahead id env hm with hse | hlt
    · exact .inl hse
    · rcases h.source id env hm with hde | ⟨hu, ho, hgt⟩
      · exact .inr (.inl ⟨id, env, hde, rfl, hlt⟩)
      · exact .inr (.inr ⟨id, env, hu, ho, rfl, max_lt hgt hlt⟩)
  · have hpo := h.le_restPos
    exact .inr (hw.mono hpo (max_le hu (hpo.trans ((le_max_right _ _).trans hen))))

theorem LiveInvariant.covers (hinv : LiveInvariant c s) :
    Covers c s (s.deviceEntries c) (s.received ++ s.sent) s.devicePos s.userPos := by
  have hp := hinv.phase
  cases heq : s.phase with
  | idle =>
    rw [heq] at hp
    exact hp
  | reading start =>
    rw [heq] at hp
    exact hp.1
  | readingUser start deviceMsgs =>
    rw [heq] at hp
    obtain ⟨device, hde, -, hco, -⟩ := hp
    exact fun k hk => (hco k hk).imp_right fun hw =>
      waiting_of_subset hw hde.subset (Subset.refl _)
  | delivering start page rest deviceBefore userBefore =>
    rw [heq] at hp
    exact Delivering.covers hp

variable {deviceBefore userBefore : Option StreamId}

theorem cursorOf_append_singleton (done : List Response) (r : Response) : cursorOf (done ++ [r]) = r.1 := by
  simp [cursorOf]

theorem responseTo_eq_nil_or (e : ReadEntry) :
    LiveState.responseTo c e = [] ∨ ∃ env, LiveState.responseTo c e = [(e.1, env)] := by
  unfold LiveState.responseTo
  split
  · exact .inl rfl
  · split_ifs
    · exact .inl rfl
    · exact .inr ⟨_, rfl⟩

theorem LiveInvariant.deliver (hinv : LiveInvariant c s)
    (hp : s.phase = .delivering start page (e :: rest) deviceBefore userBefore) : LiveInvariant c
      (afterEntry c s e (.delivering start page rest deviceBefore userBefore)) := by
  have ho : Delivering c s start page (e :: rest) := by
    have := hinv.phase
    rwa [hp] at this
  have hne : Delivering c (afterEntry c s e (.delivering start page rest deviceBefore userBefore))
      start page rest := ho.deliver hinv
  have hle : e.1 ≤ s.top := (ho.rest_le e (by simp)).2
  refine ⟨hinv.separated, hinv.answerable, hinv.writing, hle, hinv.user_le, ?_, ?_, hne, ?_⟩
  · intro r hr
    rw [afterEntry, ← List.append_assoc, List.mem_append] at hr
    rcases hr with hr | hr
    · exact hinv.response_le r hr
    · rcases responseTo_eq_nil_or (c := c) e with hni | ⟨env, hon⟩
      · rw [hni] at hr
        cases hr
      · rw [hon, List.mem_singleton] at hr
        rw [hr]
        exact hle
  · -- The responses before this one are covered already; the new one resumes at its own entry.
    intro n hn
    rcases Nat.lt_or_ge s.sent.length n with hlt | hge
    · obtain ⟨env, hon⟩ := (responseTo_eq_nil_or (c := c) e).resolve_left fun hni => by
        simp only [afterEntry, hni, List.append_nil] at hn
        omega
      have hco := hne.covers.mono le_rfl (le_max_right _ _)
      have hse : (s.sent ++ [(e.1, env)]).take n = s.sent ++ [(e.1, env)] :=
        List.take_of_length_le (by simpa using Nat.succ_le_of_lt hlt)
      simp only [afterEntry, hon] at hco ⊢
      rw [hse, ← List.append_assoc, cursorOf_append_singleton]
      rw [← List.append_assoc] at hco
      exact hco
    · have hta : (s.sent ++ LiveState.responseTo c e).take n = s.sent.take n :=
        List.take_append_of_le_length hge
      simp only [afterEntry, hta]
      exact hinv.client n hge
  · intro done hd k hk
    rw [delivered_afterEntry, List.mem_append]
    exact .inl (hinv.finished done hd k hk)

theorem LiveInvariant.endPage {phase : Phase} {finished : Option (List MessageDedupKey)}
    (hinv : LiveInvariant c s) (hp : s.phase = .delivering start page [] deviceBefore userBefore)
    (hn : phase = .idle ∨ phase = .reading start) (hf : finished = none ∨ finished = s.finished ∨
      page.hasMore = false ∧ finished = some start) : LiveInvariant c { s with
      userStreamId := page.userExaminedThrough.or s.userStreamId
      phase
      finished } := by
  have ho : Delivering c s start page [] := by
    have := hinv.phase
    rwa [hp] at this
  have hgD : (page.userExaminedThrough.or s.userStreamId).getD 0 =
      page.userExaminedThrough.getD (s.userStreamId.getD 0) := by
    cases page.userExaminedThrough <;> rfl
  have hco : ∀ k ∈ s.messagesFor c, k ∈ s.delivered c ∨
      Waiting c.sha256 c.device (s.deviceEntries c) (s.userEntries c) k s.devicePos
        (max ((page.userExaminedThrough.or s.userStreamId).getD 0) s.devicePos) := by
    obtain ⟨w, hen, -, -, hcov⟩ := ho.cover
    intro k hk
    rw [hgD]
    rcases hcov k hk with hse | ⟨id, env, hm, -⟩ | hw
    · exact .inl hse
    · cases hm
    · exact .inr (hw.mono le_rfl hen)
  refine ⟨hinv.separated, hinv.answerable, hinv.writing, hinv.device_le, ?_, hinv.response_le, hinv.client, ?_, ?_⟩
  · rw [hgD]
    cases hx : page.userExaminedThrough with
    | none => exact hinv.user_le
    | some x => exact ho.examined_le x hx
  · rcases hn with rfl | rfl
    · exact hco
    · exact ⟨hco, ho.start_sub⟩
  · rcases hf with rfl | rfl | ⟨hmo, rfl⟩
    · simp
    · exact hinv.finished
    · intro done hd k hk
      obtain rfl := Option.some.inj hd
      rcases ho.complete hmo k hk with hse | ⟨id, env, hm, -⟩
      · exact hse
      · cases hm

theorem LiveInvariant.reconnect (hinv : LiveInvariant c s) {n : Nat} (hn : n ≤ s.sent.length) :
    LiveInvariant c { s with
      lastStreamId := (s.received ++ s.sent.take n).getLast?.map Prod.fst
      userStreamId := none
      phase := .idle
      sent := []
      received := s.received ++ s.sent.take n
      finished := none } := by
  have hle : ∀ r ∈ s.received ++ s.sent.take n, r.1 ≤ s.top :=
    fun r hr => hinv.response_le r (mem_of_mem_take hr)
  have hco := hinv.client n hn
  refine ⟨hinv.separated, hinv.answerable, hinv.writing, cursorOf_le hle, StreamId.zero_le _, ?_, ?_, ?_, by simp⟩
  · intro r hr
    rw [List.append_nil] at hr
    exact hle r hr
  · intro m _
    rw [List.take_nil, List.append_nil]
    exact hco
  · show Covers _ _ _ (s.received ++ s.sent.take n ++ []) _ (max 0 _)
    rw [List.append_nil, max_eq_right (StreamId.zero_le _)]
    exact hco

end

theorem liveInvariant_initial (c : LiveReader) : LiveInvariant c .initial := by
  have hno : LiveState.initial.messagesFor c = [] := rfl
  have hco : ∀ device done d u, Covers c .initial device done d u := by
    intro device done d u k hk
    rw [hno] at hk
    cases hk
  have hpo : ∀ p : StreamId, (0 : StreamId) ≤ p := StreamId.zero_le
  refine ⟨?_, ?_, ?_, hpo _, hpo _, ?_, fun n _ => hco _ _ _ _, hco _ _ _ _, ?_⟩
  · intro id env env' hm
    cases hm
  · intro e he
    cases he
  · intro env hen
    cases hen
  · intro r hr
    cases hr
  · intro start hst
    cases hst

theorem LiveInvariant.unwritten {now : UInt64} {writing : List MessageEnvelope}
    (hinv : LiveInvariant c s) (hw : ∀ env ∈ writing, env ∈ s.writing) :
    LiveInvariant c (written s now s.device s.user writing) :=
  hinv.grow ⟨List.prefix_rfl, Subset.refl _, le_rfl, fun _ hk => .inl hk⟩ hinv.separated
    hinv.answerable fun env he => hinv.writing env (hw env he)

theorem liveInvariant_step {t : LiveState} {a : LiveAction} (hinv : LiveInvariant c s)
    (hor : Ordered c s a) (hst : s.step c a = some t) : LiveInvariant c t := by
  cases a with
  | tick now =>
    simp only [LiveState.step] at hst
    split_ifs at hst
    obtain rfl := Option.some.inj hst
    exact hinv.unwritten fun _ he => he
  | xaddUser env targeted =>
    obtain ⟨⟨id, user⟩, ha, rfl⟩ := Option.map_eq_some_iff.mp hst
    obtain ⟨hid, hlt, rfl⟩ := Stream.xadd_eq_some ha
    refine hinv.xaddUser hlt (hor.2 id hid) hor.1 fun env' he => ?_
    split_ifs at he
    · simpa using he
    · exact .inl he
  | xaddDevice i =>
    obtain ⟨env, he, hst⟩ := Option.bind_eq_some_iff.mp hst
    obtain ⟨⟨id, device⟩, ha, rfl⟩ := Option.map_eq_some_iff.mp hst
    obtain ⟨hid, hlt, rfl⟩ := Stream.xadd_eq_some ha
    obtain ⟨ho, hsi⟩ := hor env he id hid
    exact hinv.xaddDevice hlt (List.mem_of_getElem? he) ho hsi fun _ h => List.mem_of_mem_eraseIdx h
  | failDevice i =>
    simp only [LiveState.step] at hst
    split_ifs at hst
    obtain rfl := Option.some.inj hst
    exact hinv.unwritten fun _ h => List.mem_of_mem_eraseIdx h
  | startPoll =>
    simp only [LiveState.step] at hst
    split at hst
    next hp =>
      obtain rfl := Option.some.inj hst
      have hidl := hinv.phase
      rw [hp] at hidl
      exact hinv.setPhase ⟨hidl, fun _ hk => hk⟩ (by simp)
    next => cases hst
  | readDevice =>
    simp only [LiveState.step] at hst
    split at hst
    next start hp =>
      obtain rfl := Option.some.inj hst
      have hre := hinv.phase
      rw [hp] at hre
      exact hinv.setPhase ⟨_, List.prefix_rfl, rfl, hre⟩ hinv.finished
    next => cases hst
  | readUser order =>
    simp only [LiveState.step] at hst
    split at hst
    next start deviceMsgs hp =>
      obtain rfl := Option.some.inj hst
      have hr := hinv.phase
      rw [hp] at hr
      obtain ⟨device, hde, rfl, hco, hs⟩ := hr
      exact hinv.setPhase (delivering_of_read hinv hde hco hs rfl) hinv.finished
    next => cases hst
  | deliver =>
    simp only [LiveState.step] at hst
    split at hst
    next hp =>
      obtain rfl := Option.some.inj hst
      exact hinv.deliver hp
    next => cases hst
  | endPage =>
    simp only [LiveState.step] at hst
    split at hst
    next start page deviceBefore userBefore hp =>
      split_ifs at hst with hm
      · obtain rfl := Option.some.inj hst
        exact hinv.endPage hp (.inl rfl) (.inr (.inr ⟨by simpa using hm, rfl⟩))
      · obtain rfl := Option.some.inj hst
        exact hinv.endPage hp (.inl rfl) (.inl rfl)
      · obtain rfl := Option.some.inj hst
        exact hinv.endPage hp (.inr rfl) (.inr (.inl rfl))
    next => cases hst
  | abort =>
    simp only [LiveState.step] at hst
    split at hst
    · cases hst
    · obtain rfl := Option.some.inj hst
      exact hinv.setPhase hinv.covers hinv.finished
  | reconnect n =>
    simp only [LiveState.step] at hst
    split_ifs at hst with hn
    obtain rfl := Option.some.inj hst
    exact hinv.reconnect hn

/-- **In every ordered run, when a poll has ended with nothing more, every message that was in the
mailbox for the device when the poll started has been sent.** -/
theorem ordered_run_delivers (c : LiveReader) (schedule : List LiveAction) (t : LiveState)
    (hordered : Along (LiveState.step c) (Ordered c) .initial schedule)
    (hrun : run (LiveState.step c) .initial schedule = some t) :
    ∀ start ∈ t.finished, ∀ k ∈ start, k ∈ t.delivered c :=
  (run_invariant liveInvariant_step (liveInvariant_initial c) hordered hrun).finished

def chatMessage (messageId : String) : MessageEnvelope :=
  ⟨messageId, "alice", "bob", .directMessage, [], false, none, none⟩

def exampleLiveReader : LiveReader := ⟨id, "bob", "phone", fun _ => false⟩

def oneDelivery : List LiveAction :=
  [.tick 4, .xaddUser (chatMessage "first") true, .tick 5, .xaddDevice 0,
    .startPoll, .readDevice, .readUser (.identity _), .deliver, .endPage]

def missedDelivery : List LiveAction :=
  oneDelivery ++ [.xaddUser (chatMessage "second") true, .failDevice 0,
    .startPoll, .readDevice, .readUser (.identity _), .endPage]

theorem oneDelivery_delivers : ∃ t, run (LiveState.step exampleLiveReader) .initial oneDelivery = some t ∧
      t.finished = some [.forEnvelope id (chatMessage "first"), .forEnvelope id (chatMessage "first")] ∧
      .forEnvelope id (chatMessage "first") ∈ t.delivered exampleLiveReader :=
  reaches_with (by decide +kernel) fun t hrun hfinished =>
    ordered_run_delivers exampleLiveReader oneDelivery t (by decide +kernel) hrun _ hfinished _ (by simp)

/-- The second message is in the mailbox when the second poll starts; the poll ends with nothing
more and the message was not sent: its id in the user stream is the cursor the first poll took
from the device stream. -/
theorem missedDelivery_passes_over :
    ∃ t start, run (LiveState.step exampleLiveReader) .initial missedDelivery = some t ∧
      t.finished = some start ∧ MessageDedupKey.forEnvelope id (chatMessage "second") ∈ start ∧
      MessageDedupKey.forEnvelope id (chatMessage "second") ∉ t.delivered exampleLiveReader := by
  obtain ⟨t, hrun, hfinished, hdelivered⟩ := reaches (LiveState.step exampleLiveReader) .initial
    missedDelivery (fun t => t.finished = some [.forEnvelope id (chatMessage "first"),
    .forEnvelope id (chatMessage "first"), .forEnvelope id (chatMessage "second")] ∧
    t.delivered exampleLiveReader = [.forEnvelope id (chatMessage "first")]) (by decide +kernel)
  refine ⟨t, _, hrun, hfinished, by simp, ?_⟩
  rw [hdelivered]
  decide +kernel

end ConstructServer.Messaging
