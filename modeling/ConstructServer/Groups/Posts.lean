import ConstructServer.Library.Service
import ConstructServer.Library.Uuid
import ConstructServer.Queue.Envelope
import Mathlib.Data.List.Nodup
import Mathlib.Data.List.Perm.Subperm

/-!
# Repeated channel posts

A post may carry an id that the client has drawn, "for dedup". The id is stored and indexed, but the
index is not unique and the insertion does not look for it: a post that is published again is stored
again, under the next sequence number.
-/

namespace ConstructServer.Groups.Posts

open Calls Queue Redis Machine List

structure PublishPostRequest where
  channelId : String
  ciphertext : Bytes
  threadId : String
  clientMessageId : String
deriving DecidableEq

structure PublishPostResponse where
  postId : Uuid
  sentAt : Nat
  sequenceNumber : Nat
  expiresAt : Nat

structure NewPost where
  senderDeviceId : String
  ciphertext : Bytes
  threadId : Option Uuid
  clientMessageId : Option String
  expiresAt : Nat

/-- A row of `channel_posts`. -/
structure Post extends NewPost where
  postId : Uuid
  sequenceNumber : Nat
  sentAt : Nat

/-- What the handler was told: whether the account is new and the limit allows the post, whether the
device is an administrator, and the retention of the channel in days, if there is one. Nothing where
there was an error. -/
structure Replies where
  limit : Option (Bool × Bool)
  isAdmin : Option Bool
  retentionDays : Option (Option Nat)
  now : Nat

def parseId (text message : String) : Except Status Uuid :=
  (Uuid.parseStr text).elim (.error ⟨.invalidArgument, message⟩) .ok

def optionalText (text : String) : Option String := if text.isEmpty then none else some text

def rateLimited (inWarmup : Bool) : Status :=
  ⟨.resourceExhausted, if inWarmup then "RATE_LIMIT: max 50 publish_post/1 hours (account warming: true)"
    else "RATE_LIMIT: max 500 publish_post/1 hours (account warming: false)"⟩

def require (c : Bool) (e : Status) : Except Status Unit := if c then .ok () else .error e

/-- `publish_post` up to the insertion. -/
def preparePost (deviceId : String) (req : PublishPostRequest) (r : Replies) : Except Status NewPost := do
  let _ ← parseId req.channelId "Invalid channel_id"
  let limit ← orError ⟨.internal, "Rate limit error"⟩ r.limit
  require limit.2 (rateLimited limit.1)
  let isAdmin ← orError ⟨.internal, "DB error: Failed to check channel admin status"⟩ r.isAdmin
  require isAdmin ⟨.permissionDenied, "Only channel admins can publish posts"⟩
  require (!req.ciphertext.isEmpty) ⟨.invalidArgument, "ciphertext is required"⟩
  let threadId ← (optionalText req.threadId).mapM (parseId · "Invalid thread_id")
  let found ← orError ⟨.internal, "DB error: Failed to fetch channel"⟩ r.retentionDays
  let retentionDays ← orError ⟨.notFound, "Channel not found"⟩ found
  pure ⟨deviceId, req.ciphertext, threadId, optionalText req.clientMessageId, r.now + retentionDays * 86400⟩

structure PostStore where
  now : Nat
  lastPostSequence : Option Nat
  posts : List Post
  waiting : List NewPost
  answered : List (NewPost × PublishPostResponse)
  requests : List (String × PublishPostRequest)

def Post.response (p : Post) : PublishPostResponse := ⟨p.postId, p.sentAt, p.sequenceNumber, p.expiresAt⟩

/-- `insert_channel_post`: the next sequence number and the row, in one statement. An id that is too
long for its column is an error. -/
def PostStore.insert (s : PostStore) (post : NewPost) (postId : Uuid) : Option (Post × PostStore) :=
  s.lastPostSequence.bind fun last =>
    if (∀ p ∈ s.posts, p.postId ≠ postId) ∧ ∀ id ∈ post.clientMessageId, id.length ≤ 64 then
      let row : Post := { post with postId, sequenceNumber := last + 1, sentAt := s.now }
      some (row, { s with lastPostSequence := some (last + 1), posts := s.posts ++ [row] })
    else none

inductive PostAction
  | tick (seconds : Nat)
  | request (deviceId : String) (req : PublishPostRequest) (r : Replies)
  | insert (i : Nat) (postId : Uuid) (o : Outcome)

/-- A request that is refused leaves nothing behind; `requests` is the log of all that came. -/
def PostStore.step (s : PostStore) : PostAction → Option PostStore
  | .tick seconds => some { s with now := s.now + seconds }
  | .request deviceId req r =>
    let s := { s with requests := s.requests ++ [(deviceId, req)] }
    match preparePost deviceId req r with
    | .ok post => some { s with waiting := s.waiting ++ [post] }
    | .error _ => some s
  | .insert i postId o => s.waiting[i]?.bind fun post =>
      let rest := s.waiting.eraseIdx i
      match o with
      | .failed => some { s with waiting := rest }
      | .lost => (s.insert post postId).map fun (_, t) => { t with waiting := rest }
      | .ok => (s.insert post postId).map fun (p, t) =>
          { t with waiting := rest, answered := s.answered ++ [(post, p.response)] }

def NewPost.message (p : NewPost) : String × Option String := (p.senderDeviceId, p.clientMessageId)

def requested (r : String × PublishPostRequest) : String × Option String :=
  (r.1, optionalText r.2.clientMessageId)

def Distinct (messages : List (String × Option String)) : Prop :=
  (messages.filter fun m => m.2.isSome).Nodup

instance (messages : List (String × Option String)) : Decidable (Distinct messages) :=
  inferInstanceAs (Decidable (List.Nodup _))

/-- One post is stored for each sender and id, and requests for it are answered alike. -/
structure Idempotent (s : PostStore) : Prop where
  stored : Distinct (s.posts.map fun p => p.message)
  answers : ∀ a ∈ s.answered, ∀ b ∈ s.answered, a.1.message = b.1.message →
    a.1.clientMessageId ≠ none → a.2 = b.2

/-- What is stored or waits was requested, each post by a request of its own, and the answers are
those of stored posts. -/
structure Kept (s : PostStore) : Prop where
  asked : (s.waiting.map NewPost.message ++ s.posts.map fun p => p.message).Subperm
    (s.requests.map requested)
  answered : ∀ a ∈ s.answered, ∃ p ∈ s.posts, p.toNewPost = a.1 ∧ a.2 = p.response

variable {s t : PostStore} {r : String × PublishPostRequest}

theorem message_of_preparePost {replies : Replies} {post : NewPost}
    (h : preparePost r.1 r.2 replies = .ok post) : post.message = requested r := by
  simp only [preparePost, bind, Except.bind] at h
  repeat' split at h
  all_goals cases h
  rfl

theorem insert_eq_some {post : NewPost} {postId : Uuid} {p : Post}
    (h : s.insert post postId = some (p, t)) : p.toNewPost = post ∧ t.posts = s.posts ++ [p] ∧
      t.waiting = s.waiting ∧ t.answered = s.answered ∧ t.requests = s.requests := by
  obtain ⟨last, -, h⟩ := Option.bind_eq_some_iff.mp h
  split_ifs at h
  cases h
  exact ⟨rfl, rfl, rfl, rfl, rfl⟩

theorem Kept.insert {post : NewPost} {i : Nat} {postId : Uuid} {p : Post} (hs : Kept s)
    (hi : s.waiting[i]? = some post) (h : s.insert post postId = some (p, t)) :
    Kept { t with waiting := s.waiting.eraseIdx i } ∧ p ∈ t.posts := by
  obtain ⟨rfl, hposts, -, hans, hreq⟩ := insert_eq_some h
  obtain ⟨hlt, heq⟩ := List.getElem?_eq_some_iff.mp hi
  refine ⟨⟨?_, fun a ha => ?_⟩, by simp [hposts]⟩
  · have hperm := (getElem_cons_eraseIdx_perm hlt).map NewPost.message
    rw [heq] at hperm
    refine List.Subperm.trans (List.Perm.subperm ?_) (hreq ▸ hs.asked)
    rw [hposts, map_append, ← append_assoc]
    exact (perm_append_singleton _ _).trans (hperm.append_right _)
  · obtain ⟨q, hq, hqa⟩ := hs.answered a (hans ▸ ha)
    exact ⟨q, by simp [hposts, hq], hqa⟩

theorem Kept.step {a : PostAction} (hs : Kept s) (h : s.step a = some t) : Kept t := by
  cases a with
  | tick seconds =>
    cases h
    exact ⟨hs.asked, hs.answered⟩
  | request deviceId req replies =>
    simp only [PostStore.step] at h
    split at h
    · rename_i post hpost
      cases h
      refine ⟨?_, hs.answered⟩
      have hm := message_of_preparePost (r := (deviceId, req)) hpost
      rw [map_append, map_append, map_singleton, map_singleton, hm,
        append_assoc]
      exact (perm_middle.subperm.trans ((subperm_cons _).mpr hs.asked)).trans
        (perm_append_singleton _ _).symm.subperm
    · cases h
      refine ⟨hs.asked.trans ?_, hs.answered⟩
      rw [map_append]
      exact (sublist_append_left _ _).subperm
  | insert i postId o =>
    obtain ⟨post, hpost, h⟩ := Option.bind_eq_some_iff.mp h
    cases o with
    | failed =>
      cases h
      exact ⟨((((eraseIdx_sublist _ _).map _).append_right _).subperm).trans hs.asked,
        hs.answered⟩
    | lost =>
      obtain ⟨⟨p, u⟩, hi, heq⟩ := Option.map_eq_some_iff.mp h
      cases heq
      exact (hs.insert hpost hi).1
    | ok =>
      obtain ⟨⟨p, u⟩, hi, heq⟩ := Option.map_eq_some_iff.mp h
      cases heq
      obtain ⟨hk, hp⟩ := hs.insert hpost hi
      obtain ⟨hrow, -, -, hans, -⟩ := insert_eq_some hi
      refine ⟨hk.asked, fun a ha => ?_⟩
      rcases mem_concat ha with ha | rfl
      · exact hk.answered a (hans ▸ ha)
      · exact ⟨p, hp, hrow, rfl⟩

theorem eq_of_message_eq {posts : List Post} (hd : Distinct (posts.map fun p => p.message))
    {p q : Post} (hp : p ∈ posts) (hq : q ∈ posts) (h : p.message = q.message)
    (hid : p.clientMessageId ≠ none) : p = q := by
  rw [Distinct, filter_map] at hd
  refine inj_on_of_nodup_map hd (mem_filter.mpr ⟨hp, ?_⟩) (mem_filter.mpr ⟨hq, ?_⟩) h
  · exact Option.isSome_iff_ne_none.mpr hid
  · exact Option.isSome_iff_ne_none.mpr fun hn => hid ((congrArg Prod.snd h).trans hn)

theorem Kept.idempotent (hs : Kept s) (hd : Distinct (s.requests.map requested)) :
    Idempotent s := by
  have hstored : Distinct (s.posts.map fun p => p.message) := by
    obtain ⟨l, hperm, hsub⟩ := ((sublist_append_right _ _).subperm.trans hs.asked).filter
      fun m => m.2.isSome
    exact hperm.nodup (hsub.nodup hd)
  refine ⟨hstored, fun a ha b hb hab hid => ?_⟩
  obtain ⟨p, hp, hpa, hpr⟩ := hs.answered a ha
  obtain ⟨q, hq, hqb, hqr⟩ := hs.answered b hb
  rw [← hpa, ← hqb] at hab
  rw [← hpa] at hid
  rw [hpr, hqr, eq_of_message_eq hstored hp hq hab hid]

def emptyChannel (now : Nat) : PostStore := ⟨now, some 0, [], [], [], []⟩

theorem kept_of_run {now : Nat} {as : List PostAction}
    (hrun : run PostStore.step (emptyChannel now) as = some s) : Kept s :=
  run_invariant (G := fun _ _ => True) (fun hs _ => hs.step) ⟨by simp [emptyChannel], by simp [emptyChannel]⟩
    (along_of_forall fun _ _ => trivial) hrun

/-- There are replies with which the request is carried out. -/
def Publishable (r : String × PublishPostRequest) : Prop :=
  r.2.clientMessageId.length ≤ 64 ∧ ∃ replies post, preparePost r.1 r.2 replies = .ok post

def turnedAway (r : String × PublishPostRequest) : PostAction :=
  .request r.1 r.2 ⟨none, none, none, 0⟩

theorem run_turnedAway (rs : List (String × PublishPostRequest)) (s : PostStore) :
    run PostStore.step s (rs.map turnedAway) =
      some { s with requests := s.requests ++ rs } := by
  induction rs generalizing s with
  | nil => simp
  | cons r rs ih =>
    have hr : ∃ e, preparePost r.1 r.2 ⟨none, none, none, 0⟩ = .error e := by
      unfold preparePost
      cases parseId r.2.channelId "Invalid channel_id" <;> exact ⟨_, rfl⟩
    obtain ⟨e, he⟩ := hr
    rw [map_cons, run_cons]
    simp only [turnedAway, PostStore.step, he, Option.bind_some, ih, append_assoc,
      singleton_append]

theorem stores {last : Nat} {postId : Uuid} (hr : Publishable r) (hw : s.waiting = [])
    (hl : s.lastPostSequence = some last) (hid : ∀ p ∈ s.posts, p.postId ≠ postId) :
    ∃ as t p, run PostStore.step s as = some t ∧ t.posts = s.posts ++ [p] ∧
      p.message = requested r ∧ p.postId = postId ∧ t.waiting = [] ∧
      t.lastPostSequence = some (last + 1) ∧ t.requests = s.requests ++ [r] := by
  obtain ⟨hlen, replies, post, hpost⟩ := hr
  have hm := message_of_preparePost hpost
  have hcol : ∀ id ∈ post.clientMessageId, id.length ≤ 64 := by
    intro id hid
    have hsome : optionalText r.2.clientMessageId = some id := (congrArg Prod.snd hm).symm.trans hid
    unfold optionalText at hsome
    split_ifs at hsome
    cases hsome
    exact hlen
  let row : Post := ⟨post, postId, last + 1, s.now⟩
  refine ⟨[.request r.1 r.2 replies, .insert 0 postId .ok],
    { s with
      lastPostSequence := some (last + 1)
      posts := s.posts ++ [row]
      answered := s.answered ++ [(post, row.response)]
      requests := s.requests ++ [r] }, row, ?_, rfl, hm, rfl, hw, rfl, rfl⟩
  have hcond : (∀ p ∈ s.posts, p.postId ≠ postId) ∧ ∀ id ∈ post.clientMessageId, id.length ≤ 64 :=
    ⟨hid, hcol⟩
  simp only [run_cons, run_nil, PostStore.step, hpost, hw, Option.bind_some,
    nil_append, List.getElem?_cons_zero, PostStore.insert, hl, if_pos hcond, Option.map_some,
    eraseIdx_cons_zero, row]

theorem stores_one {rs : List (String × PublishPostRequest)} {last : Nat} (postId : Uuid)
    (hm : r ∈ rs) (hr : Publishable r) (hw : s.waiting = []) (hl : s.lastPostSequence = some last)
    (hid : ∀ p ∈ s.posts, p.postId ≠ postId) :
    ∃ as t p, run PostStore.step s as = some t ∧ t.posts = s.posts ++ [p] ∧
      p.message = requested r ∧ p.postId = postId ∧ t.waiting = [] ∧
      t.lastPostSequence = some (last + 1) ∧ t.requests = s.requests ++ rs := by
  obtain ⟨before, after, rfl⟩ := append_of_mem hm
  obtain ⟨as, t, p, hrun, hposts, hmes, hpid, hwt, hlt, hreq⟩ :=
    stores (s := { s with requests := s.requests ++ before }) hr hw hl hid
  refine ⟨before.map turnedAway ++ (as ++ after.map turnedAway),
    { t with requests := t.requests ++ after }, p, ?_, hposts, hmes, hpid, hwt, hlt, ?_⟩
  · rw [run_append, run_turnedAway before, Option.bind_some, run_append, hrun,
      Option.bind_some, run_turnedAway after]
  · simp only [hreq, append_assoc, singleton_append]

/-- **Posts are idempotent exactly if no sender requests an id twice:** a list of requests that can
be carried out leads to one post for each sender and id, with equal answers, in every run in which
the requests come in this order, if and only if no two of them have the same sender and the same id.
-/
theorem posts_idempotent {rs : List (String × PublishPostRequest)} (hrs : ∀ r ∈ rs, Publishable r) :
    (∀ now as s, run PostStore.step (emptyChannel now) as = some s → s.requests = rs →
      Idempotent s) ↔ Distinct (rs.map requested) := by
  constructor
  · intro h
    rw [Distinct, nodup_iff_pairwise_ne, pairwise_filter, pairwise_map,
      pairwise_iff_forall_sublist]
    intro x y hsub hx hy heq
    obtain ⟨before, after, rfl, hxm, hym⟩ := cons_sublist_iff.mp hsub
    rw [singleton_sublist] at hym
    -- Both are carried out, each under a post id of its own.
    obtain ⟨as, t, p, hrun, hposts, hp, hpid, hw, hl, hreq⟩ := stores_one
      (s := emptyChannel 0) (Uuid.repeated (Uuid.digit 1)) hxm
      (hrs x (mem_append_left _ hxm)) rfl rfl (by simp [emptyChannel])
    obtain ⟨bs, u, q, hrun', hposts', hq, -, -, -, hreq'⟩ := stores_one
      (Uuid.repeated (Uuid.digit 2)) hym (hrs y (mem_append_right _ hym)) hw hl (by
        rw [hposts]
        simp only [emptyChannel, nil_append, mem_singleton, forall_eq, hpid]
        decide)
    have hi := h 0 (as ++ bs) u (by rw [run_append, hrun, Option.bind_some, hrun'])
      (by rw [hreq', hreq]; rfl)
    have hst := hi.stored
    rw [hposts', hposts] at hst
    simp only [emptyChannel, nil_append, singleton_append, map_cons, map_nil,
      hp, hq, ← heq, Distinct, filter_cons, hx, if_true, filter_nil] at hst
    simp at hst
  · rintro hd now as s hrun rfl
    exact (kept_of_run hrun).idempotent hd

def postBy (device id : String) : String × PublishPostRequest :=
  (device, ⟨(Uuid.repeated (Uuid.digit 1)).toStr, [7], "", id⟩)

def noObstacle : Replies := ⟨some (false, true), some true, some (some 90), 1000⟩

def publish (r : String × PublishPostRequest) (postId : Nat) : List PostAction :=
  [.request r.1 r.2 noObstacle, .insert 0 (Uuid.repeated (Uuid.digit postId)) .ok]

/-- Two senders with the same id, another id, and two posts without one. -/
theorem posts_idempotent_demo :
    ∃ s, run PostStore.step (emptyChannel 1000) (publish (postBy "a" "m") 2 ++
        publish (postBy "b" "m") 3 ++ publish (postBy "a" "n") 4 ++ publish (postBy "a" "") 5 ++
        publish (postBy "a" "") 6) = some s ∧
      s.requests = [postBy "a" "m", postBy "b" "m", postBy "a" "n", postBy "a" "", postBy "a" ""] ∧
      s.answered.map (·.2.sequenceNumber) = [1, 2, 3, 4, 5] ∧ Idempotent s := by
  have hrs : ∀ r ∈ [postBy "a" "m", postBy "b" "m", postBy "a" "n", postBy "a" "", postBy "a" ""],
      Publishable r := by
    simp only [forall_mem_cons]
    exact ⟨⟨by decide, noObstacle, _, rfl⟩, ⟨by decide, noObstacle, _, rfl⟩,
      ⟨by decide, noObstacle, _, rfl⟩, ⟨by decide, noObstacle, _, rfl⟩,
      ⟨by decide, noObstacle, _, rfl⟩, by simp⟩
  exact reaches_with₂ (by decide +kernel) fun s hrun hreq _ =>
    (posts_idempotent hrs).mpr (by decide +kernel) _ _ s hrun hreq

/-- **A post that is published again is stored again**, and the second answer names another post. -/
theorem republished_post_stored_twice :
    ∃ s, run PostStore.step (emptyChannel 1000) (publish (postBy "a" "m") 2 ++
        publish (postBy "a" "m") 3) = some s ∧
      s.posts.map (fun p => (p.senderDeviceId, p.clientMessageId)) = [("a", some "m"), ("a", some "m")] ∧
      s.answered.map (·.2.sequenceNumber) = [1, 2] :=
  reaches _ _ _ _ (by decide +kernel)

end ConstructServer.Groups.Posts
