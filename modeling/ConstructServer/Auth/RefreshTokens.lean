import Mathlib.Logic.Relation
import ConstructServer.Library.Machine
import ConstructServer.Library.RedisKeys

/-!
# Refresh tokens in Redis

A refresh token is a key with its account, and an index per account lists its tokens. A new token is
stored by three commands, a rotation is one script, and revoking all tokens of an account reads the
index, deletes the tokens one by one and deletes the index. The calls of one account run side by
side, one command at a time, and any command may fail or lose its reply.
-/

namespace ConstructServer.Auth

open Redis Machine Keyspace List Option

def refreshTokenKey (jti : String) : String := "refresh_token:" ++ jti

def userTokensKey (userId : String) : String := "user_tokens:" ++ userId

theorem refreshTokenKey_injective : Function.Injective refreshTokenKey := fun _ _ h =>
  String.append_right_inj _ |>.mp h

/-- The keys of refresh tokens with their accounts, and the indexes of the accounts. -/
structure TokenStore where
  tokens : Keyspace String
  index : Keyspace (Finset String)

/-- The reply of the rotation script: nothing, the account of the old token, or an error. -/
inductive RotateReply
  | nil
  | value (userId : String)
  | error
deriving DecidableEq

section

variable (userId : String) (ttl now : Nat) (store : TokenStore)

/-- The script of `rotate_refresh_token`. What it did before an error stays done. -/
def TokenStore.rotate (oldJti newJti : String) : TokenStore × RotateReply :=
  match store.tokens.get now (refreshTokenKey oldJti) with
  | none => (store, .nil)
  | some val =>
    let tokens := store.tokens.del (refreshTokenKey oldJti)
    match tokens.setEx now (refreshTokenKey newJti) userId ttl with
    | none => ({ store with tokens }, .error)
    | some tokens =>
      let index := store.index.sadd now (userTokensKey userId) newJti
      match index.expire now (userTokensKey userId) ttl with
      | none => (⟨tokens, index⟩, .error)
      | some index => (⟨tokens, index⟩, .value val)

/-- The commands of `store_refresh_token`. -/
inductive StorePhase
  | setEx
  | sadd
  | expire
deriving DecidableEq

/-- One command of `store_refresh_token`, and the next one; an error ends the call. -/
def StorePhase.step (jti : String) (phase : StorePhase) (o : Outcome) :
    TokenStore × Option StorePhase :=
  if o = .failed then (store, none)
  else
    match phase with
    | .setEx =>
      match store.tokens.setEx now (refreshTokenKey jti) userId ttl with
      | none => (store, none)
      | some tokens => ({ store with tokens }, if o = .ok then some .sadd else none)
    | .sadd =>
      ({ store with index := store.index.sadd now (userTokensKey userId) jti },
        if o = .ok then some .expire else none)
    | .expire =>
      match store.index.expire now (userTokensKey userId) ttl with
      | none => (store, none)
      | some index => ({ store with index }, none)

/-- The commands of `revoke_all_user_tokens`: the read of the index, and the deletions of the tokens
it had and then of the index itself. -/
inductive RevokePhase
  | smembers
  | del (jtis : Finset String)

/-- One command of `revoke_all_user_tokens`, and the next one. The tokens come in the order Redis
lists them, so `jti` is any of those left. No error ends the call: a failed read counts as empty. -/
def RevokePhase.step (jti : String) (phase : RevokePhase) (o : Outcome) :
    Option (TokenStore × Option RevokePhase) :=
  match phase with
  | .smembers =>
    some (store, some (.del (if o = .ok then store.index.smembers now (userTokensKey userId) else ∅)))
  | .del jtis =>
    if jti ∈ jtis then
      some (if o = .failed then store
        else { store with tokens := store.tokens.del (refreshTokenKey jti) },
        some (.del (jtis.erase jti)))
    else if jtis = ∅ then
      some (if o = .failed then store
        else { store with index := store.index.del (userTokensKey userId) }, none)
    else none

end

/-- A call that is under way. A revocation has with it the tokens that were there when it began. -/
inductive TokenCall
  | store (jti : String) (phase : StorePhase)
  | revoke (existed : List String) (phase : RevokePhase)

structure TokenState where
  now : Nat
  store : TokenStore
  running : List TokenCall
  issued : List String
  rotations : List (String × String)
  revoked : List (List String)

/-- A call begins, or the next command of a call runs; a new call of `store_refresh_token` begins
with its first command, and a rotation has only one. -/
inductive TokenAction
  | tick (ms : Nat)
  | store (jti : String) (o : Outcome)
  | rotate (oldJti newJti : String) (o : Outcome)
  | revoke
  | command (i : Nat) (jti : String) (o : Outcome)

section

variable (userId : String) (ttl : Nat)

def TokenState.live (s : TokenState) (jti : String) : Bool :=
  (s.store.tokens.get s.now (refreshTokenKey jti)).isSome

def TokenState.init : TokenState := ⟨0, ⟨Keyspace.empty, Keyspace.empty⟩, [], [], [], []⟩

/-- New ids are generated at random and were not used before. -/
def TokenState.step (s : TokenState) : TokenAction → Option TokenState
  | .tick ms => some { s with now := s.now + ms }
  | .store jti o =>
    if jti ∈ s.issued then none
    else
      let (store, next) := StorePhase.setEx.step userId ttl s.now s.store jti o
      some { s with
        store
        issued := jti :: s.issued
        running := s.running ++ (next.map (TokenCall.store jti)).toList }
  | .rotate oldJti newJti o =>
    if newJti ∈ s.issued then none
    else if o = .failed then some { s with issued := newJti :: s.issued }
    else
      let (store, _) := s.store.rotate userId ttl s.now oldJti newJti
      some { s with
        store
        issued := newJti :: s.issued
        rotations := if (store.tokens (refreshTokenKey newJti)).isSome then
          (oldJti, newJti) :: s.rotations else s.rotations }
  | .revoke => some { s with running := s.running ++ [.revoke (s.issued.filter s.live) .smembers] }
  | .command i jti o =>
    match s.running[i]? with
    | none => none
    | some (.store jti phase) =>
      let (store, next) := phase.step userId ttl s.now s.store jti o
      some { s with
        store
        running := Machine.replace s.running i (next.map (TokenCall.store jti)) }
    | some (.revoke existed phase) =>
      match phase.step userId s.now s.store jti o with
      | none => none
      | some (store, some next) =>
        some { s with store, running := Machine.replace s.running i (some (.revoke existed next)) }
      | some (store, none) =>
        some { s with
          store
          running := Machine.replace s.running i none
          revoked := existed :: s.revoked }

/-- The token was rotated from the other one, in any number of rotations. -/
def Derived (rotations : List (String × String)) : String → String → Prop :=
  Relation.ReflTransGen fun old new => (old, new) ∈ rotations

end

section

variable (userId : String) (ttl : Nat)

def TokenCall.isStore : TokenCall → Bool
  | .store _ _ => true
  | .revoke _ _ => false

def TokenCall.isDeleting : TokenCall → Bool
  | .revoke _ (.del _) => true
  | .store _ _ | .revoke _ .smembers => false

/-- What the condition asks of the next command of a call. -/
def CallUndisturbed (s : TokenState) (jti : String) (o : Outcome) : TokenCall → Prop
  | .store _ .setEx => o ≠ .lost
  | .store _ .sadd => o = .ok ∧ ∀ c ∈ s.running, c.isDeleting = false
  | .store jti .expire =>
    o ≠ .failed ∧ s.now + ttl * 1000 ≤ Keyspace.maxDeadline ∧
      jti ∈ s.store.index.smembers s.now (userTokensKey userId) ∧
      ∀ c ∈ s.running, c.isDeleting = false
  | .revoke _ .smembers => o = .ok ∧ ∀ c ∈ s.running, c.isStore = false
  | .revoke _ (.del jtis) => jti ∈ jtis → o ≠ .failed

/-- No token is added to the index between the read and the deletion of the index by a revocation,
the index is read while no token is being stored, it is still there when a store moves its deadline,
and the commands of a store and the deletions run. -/
def Undisturbed (s : TokenState) : TokenAction → Prop
  | .tick _ | .revoke => True
  | .store _ o => o ≠ .lost
  | .rotate oldJti _ o => o = .failed ∨ s.live oldJti = false ∨ ∀ c ∈ s.running, c.isDeleting = false
  | .command i jti o => ∀ c ∈ s.running[i]?, CallUndisturbed userId ttl s jti o c

instance (s : TokenState) (jti : String) (o : Outcome) (c : TokenCall) :
    Decidable (CallUndisturbed userId ttl s jti o c) := by
  rcases c with ⟨_, _ | _ | _⟩ | ⟨_, _ | _⟩ <;> dsimp only [CallUndisturbed] <;> infer_instance

instance (s : TokenState) (a : TokenAction) : Decidable (Undisturbed userId ttl s a) := by
  cases a <;> dsimp only [Undisturbed] <;> infer_instance

end

section

variable {rotations : List (String × String)} {t jti old new : String} {issued : List String}

theorem derived_append (hf : ∀ p ∈ rotations, p.1 ≠ new) (hne : old ≠ new)
    (h : Derived ((old, new) :: rotations) t jti) :
    Derived rotations t jti ∨ jti = new ∧ Derived rotations t old := by
  induction h with
  | refl => exact .inl .refl
  | @tail mid jti _ hst ih =>
    rcases mem_cons.mp hst with hn | ho
    · obtain ⟨rfl, rfl⟩ := Prod.mk.inj hn
      rcases ih with ih | ⟨heq, -⟩
      · exact .inr ⟨rfl, ih⟩
      · exact absurd heq hne
    · rcases ih with ih | ⟨rfl, -⟩
      · exact .inl (ih.tail ho)
      · exact absurd rfl (hf _ ho)

theorem Derived.mem_issued (h : Derived rotations t jti) (ht : t ∈ issued)
    (hro : ∀ p ∈ rotations, p.2 ∈ issued) : jti ∈ issued := by
  induction h with
  | refl => exact ht
  | tail _ hst _ => exact hro _ hst

end

section

variable {userId jti jti' : String} {ttl now : Nat} {store : TokenStore}

def TokenStore.Indexed (userId : String) (store : TokenStore) (jti : String) : Prop :=
  ∃ tok c, store.tokens (refreshTokenKey jti) = some tok ∧
    store.index (userTokensKey userId) = some c ∧ jti ∈ c.value ∧
    ∀ e ∈ c.deadline, ∃ d ∈ tok.deadline, d ≤ e

def TokenStore.Live (store : TokenStore) (now : Nat) (jti : String) : Prop :=
  ∃ tok, store.tokens (refreshTokenKey jti) = some tok ∧ tok.live now = true

theorem live_iff {s : TokenState} : s.live jti = true ↔ s.store.Live s.now jti := by
  unfold TokenState.live TokenStore.Live
  rw [isSome_iff_exists]
  simp only [get_eq_some_iff]
  constructor
  · rintro ⟨_, tok, hto, hl, -⟩
    exact ⟨tok, hto, hl⟩
  · rintro ⟨tok, hto, hl⟩
    exact ⟨_, tok, hto, hl, rfl⟩

theorem TokenStore.Indexed.cell (h : store.Indexed userId jti) (hl : store.Live now jti) :
    ∃ c, store.index.cell now (userTokensKey userId) = some c ∧ jti ∈ c.value ∧
      ∀ tok, store.tokens (refreshTokenKey jti) = some tok → ∀ e ∈ c.deadline, ∃ d ∈ tok.deadline, d ≤ e := by
  obtain ⟨tok, c, hto, hc, hm, hde⟩ := h
  obtain ⟨tok', ht', hl⟩ := hl
  obtain rfl : tok = tok' := some_inj.mp (hto.symm.trans ht')
  refine ⟨c, cell_eq_some_iff.mpr ⟨hc, ?_⟩, hm, ?_⟩
  · unfold Cell.live at hl ⊢
    cases he : c.deadline with
    | none => rfl
    | some e =>
      obtain ⟨d, hd, hle⟩ := hde e he
      rw [hd, all_some, decide_eq_true_eq] at hl
      simpa using hl.trans hle
  · intro tok' ht'
    obtain rfl : tok = tok' := some_inj.mp (hto.symm.trans ht')
    exact hde

theorem TokenStore.Indexed.mem_smembers (h : store.Indexed userId jti) (hl : store.Live now jti) :
    jti ∈ store.index.smembers now (userTokensKey userId) := by
  obtain ⟨c, hc, hm, -⟩ := h.cell hl
  rw [Keyspace.smembers, Keyspace.get, hc]
  exact hm

theorem TokenStore.Indexed.sadd (h : store.Indexed userId jti) (hl : store.Live now jti) :
    TokenStore.Indexed userId
      { store with index := store.index.sadd now (userTokensKey userId) jti' } jti := by
  obtain ⟨c, hc, hm, hd⟩ := h.cell hl
  obtain ⟨tok, hto, -⟩ := hl
  have hsa := (cell_eq_some_iff.mp
    (@cell_sadd_self now (userTokensKey userId) _ store.index _ jti')).1
  refine ⟨tok, _, hto, hsa, ?_, ?_⟩
  · rw [Keyspace.smembers, Keyspace.get, hc]
    exact Finset.mem_insert_of_mem hm
  · rw [hc]
    exact hd tok hto

theorem indexed_expire {index : Keyspace (Finset String)} {tok : Cell String} {d : Nat}
    (hexp : store.index.expire now (userTokensKey userId) ttl = some index) (ht : ttl ≠ 0)
    (hm : jti ∈ store.index.smembers now (userTokensKey userId))
    (hto : store.tokens (refreshTokenKey jti) = some tok) (hd : tok.deadline = some d)
    (hle : d ≤ now + ttl * 1000) : TokenStore.Indexed userId { store with index } jti := by
  cases hc : store.index.cell now (userTokensKey userId) with
  | none =>
    rw [Keyspace.smembers, Keyspace.get, hc] at hm
    cases hm
  | some c =>
    have hse := expire_apply_self hexp hc
    rw [if_neg ht] at hse
    rw [Keyspace.smembers, Keyspace.get, hc] at hm
    exact ⟨tok, _, hto, hse, hm, fun e he => ⟨d, hd, by cases he; exact hle⟩⟩

theorem live_congr {store' : TokenStore}
    (h : store'.tokens (refreshTokenKey jti) = store.tokens (refreshTokenKey jti)) :
    store'.Live now jti ↔ store.Live now jti := by
  unfold TokenStore.Live
  rw [h]

theorem TokenStore.Indexed.congr {store' : TokenStore} (h : store.Indexed userId jti)
    (hto : store'.tokens (refreshTokenKey jti) = store.tokens (refreshTokenKey jti))
    (hin : store'.index = store.index) : store'.Indexed userId jti := by
  unfold TokenStore.Indexed at h ⊢
  rwa [hto, hin]

theorem not_live_del (store : TokenStore) (now : Nat) (jti : String) :
    ¬ TokenStore.Live ⟨store.tokens.del (refreshTokenKey jti), store.index⟩ now jti := by
  rintro ⟨tok, hto, -⟩
  simp [Keyspace.del] at hto

def TokenStore.rotated (store : TokenStore) (userId : String) (ttl now : Nat)
    (oldJti newJti : String) : Keyspace String :=
  (store.tokens.del (refreshTokenKey oldJti)).set now (refreshTokenKey newJti) userId (some ttl)

theorem rotated_self {oldJti newJti : String} :
    store.rotated userId ttl now oldJti newJti (refreshTokenKey newJti) =
      some ⟨userId, some (now + ttl * 1000)⟩ :=
  set_apply_self

theorem rotated_of_ne {oldJti newJti : String} {tok : Cell String} (hne : jti ≠ newJti)
    (hto : store.rotated userId ttl now oldJti newJti (refreshTokenKey jti) = some tok) :
    store.tokens (refreshTokenKey jti) = some tok := by
  rw [TokenStore.rotated, set_apply_of_ne (refreshTokenKey_injective.ne hne)] at hto
  by_cases heq : jti = oldJti
  · subst heq
    simp [Keyspace.del] at hto
  · rwa [del_apply_of_ne (refreshTokenKey_injective.ne heq)] at hto

/-- What the script of a rotation does. -/
inductive RotateCase (userId : String) (ttl now : Nat) (store : TokenStore) (oldJti newJti : String) :
    TokenStore × RotateReply → Prop
  | gone (hold : ¬ store.Live now oldJti) : RotateCase userId ttl now store oldJti newJti (store, .nil)
  | stopped (hold : store.Live now oldJti) (hrange : ttl = 0 ∨ Keyspace.maxDeadline < now + ttl * 1000) :
    RotateCase userId ttl now store oldJti newJti
      ({ store with tokens := store.tokens.del (refreshTokenKey oldJti) }, .error)
  | rotated (val : String) (index : Keyspace (Finset String)) (hold : store.Live now oldJti)
    (httl : ttl ≠ 0)
    (hindex : (store.index.sadd now (userTokensKey userId) newJti).expire now (userTokensKey userId) ttl =
      some index) :
    RotateCase userId ttl now store oldJti newJti
      (⟨store.rotated userId ttl now oldJti newJti, index⟩, .value val)

theorem rotate_case (oldJti newJti : String) :
    RotateCase userId ttl now store oldJti newJti (store.rotate userId ttl now oldJti newJti) := by
  unfold TokenStore.rotate
  split
  · rename_i hg
    refine .gone ?_
    rintro ⟨tok, hto, hl⟩
    rw [get_eq_some_iff.mpr ⟨tok, hto, hl, rfl⟩] at hg
    cases hg
  · rename_i val hg
    obtain ⟨tok, hto, hl, -⟩ := get_eq_some_iff.mp hg
    have ho : store.Live now oldJti := ⟨tok, hto, hl⟩
    dsimp only
    split
    · rename_i hno
      refine .stopped ho ?_
      by_contra hr
      rw [Keyspace.setEx, if_neg hr] at hno
      cases hno
    · rename_i tokens ht
      obtain ⟨htt, hr, rfl⟩ := setEx_eq_some_iff.mp ht
      split
      · rename_i hno
        have hou := expire_eq_none_iff.mp hno
        omega
      · rename_i index hin
        exact .rotated val index ho htt hin

end

section

variable (userId : String) (ttl : Nat)

/-- Of what descends from the tokens, at most the ids in `jtis` are still there. -/
structure Spared (s : TokenState) (existed : List String) (jtis : Finset String) : Prop where
  issued : ∀ t ∈ existed, t ∈ s.issued
  spared : ∀ t ∈ existed, ∀ jti, Derived s.rotations t jti → s.store.Live s.now jti → jti ∈ jtis

def TokenState.Storing (s : TokenState) (jti : String) : Prop :=
  ∃ phase, .store jti phase ∈ s.running

def CallInvariant (s : TokenState) : TokenCall → Prop
  | .store jti phase => jti ∈ s.issued ∧ phase ≠ .setEx
  | .revoke existed .smembers => ∀ t ∈ existed, t ∈ s.issued
  | .revoke existed (.del jtis) => Spared s existed jtis ∧
    ∀ jti, s.store.Live s.now jti → s.Storing jti ∨ jti ∈ jtis

structure TokenInvariant (s : TokenState) : Prop where
  stored : ∀ jti tok, s.store.tokens (refreshTokenKey jti) = some tok →
    jti ∈ s.issued ∧ ttl ≠ 0 ∧ ∃ d, tok.deadline = some d ∧ d ≤ s.now + ttl * 1000
  rotated : ∀ p ∈ s.rotations, p.1 ∈ s.issued ∧ p.2 ∈ s.issued
  running : ∀ c ∈ s.running, CallInvariant s c
  revoked : ∀ existed ∈ s.revoked, Spared s existed ∅
  indexed : ∀ jti, s.store.Live s.now jti → s.Storing jti ∨ s.store.Indexed userId jti

/-- The step adds no rotation, and every token that is there after it was there before or has a new
id and is being stored. -/
structure Quiet (s s' : TokenState) : Prop where
  issued : ∀ jti ∈ s.issued, jti ∈ s'.issued
  rotations : s'.rotations = s.rotations
  live : ∀ jti, s'.store.Live s'.now jti →
    s.store.Live s.now jti ∨ jti ∉ s.issued ∧ s'.Storing jti

end

section

variable {userId : String} {ttl : Nat} {s s' : TokenState} {existed : List String}
  {jtis : Finset String} {jti : String}

theorem Spared.quiet (h : Spared s existed jtis)
    (hro : ∀ p ∈ s.rotations, p.1 ∈ s.issued ∧ p.2 ∈ s.issued)
    (hq : Quiet s s') : Spared s' existed jtis where
  issued t ht := hq.issued t (h.issued t ht)
  spared t ht jti hde hl := by
    rw [hq.rotations] at hde
    rcases hq.live jti hl with hl | ⟨hn, -⟩
    · exact h.spared t ht jti hde hl
    · exact absurd (hde.mem_issued (h.issued t ht) fun p hp => (hro p hp).2) hn

theorem CallInvariant.quiet {c : TokenCall} (h : CallInvariant s c)
    (hro : ∀ p ∈ s.rotations, p.1 ∈ s.issued ∧ p.2 ∈ s.issued) (hq : Quiet s s') (hs : c.isDeleting = true →
      ∀ jti, s'.store.Live s'.now jti → s.Storing jti → s'.Storing jti) : CallInvariant s' c := by
  match c, h with
  | .store jti phase, h => exact ⟨hq.issued _ h.1, h.2⟩
  | .revoke existed .smembers, h => exact fun t ht => hq.issued t (h t ht)
  | .revoke existed (.del jtis), h =>
    refine ⟨h.1.quiet hro hq, fun jti hl => ?_⟩
    rcases hq.live jti hl with hl' | ⟨-, hst⟩
    · rcases h.2 jti hl' with hst | hm
      · exact .inl (hs rfl jti hl hst)
      · exact .inr hm
    · exact .inl hst

theorem TokenInvariant.quiet (h : TokenInvariant userId ttl s) (hq : Quiet s s')
    (hst : ∀ jti tok, s'.store.tokens (refreshTokenKey jti) = some tok →
      s.store.tokens (refreshTokenKey jti) = some tok ∨
        jti ∈ s'.issued ∧ ttl ≠ 0 ∧ ∃ d, tok.deadline = some d ∧ d ≤ s'.now + ttl * 1000) (hno : s.now ≤ s'.now)
    (hru : ∀ c ∈ s'.running, c ∈ s.running ∨ CallInvariant s' c)
    (hs : (∃ c ∈ s.running, c.isDeleting = true) →
      ∀ jti, s'.store.Live s'.now jti → s.Storing jti → s'.Storing jti)
    (hr : ∀ existed ∈ s'.revoked, existed ∈ s.revoked ∨ Spared s' existed ∅)
    (hin : ∀ jti, s.store.Live s.now jti → s'.store.Live s'.now jti →
      s.Storing jti ∨ s.store.Indexed userId jti → s'.Storing jti ∨ s'.store.Indexed userId jti) :
    TokenInvariant userId ttl s' where
  stored jti tok hto := by
    rcases hst jti tok hto with ho | hn
    · obtain ⟨his, htt, d, hd, hle⟩ := h.stored jti tok ho
      exact ⟨hq.issued jti his, htt, d, hd, by omega⟩
    · exact hn
  rotated p hp := by
    rw [hq.rotations] at hp
    exact ⟨hq.issued _ (h.rotated p hp).1, hq.issued _ (h.rotated p hp).2⟩
  running c hc := by
    rcases hru c hc with ho | hn
    · exact (h.running c ho).quiet h.rotated hq fun hde => hs ⟨c, ho, hde⟩
    · exact hn
  revoked existed he := by
    rcases hr existed he with ho | hn
    · exact (h.revoked existed ho).quiet h.rotated hq
    · exact hn
  indexed jti hl := by
    rcases hq.live jti hl with ho | ⟨-, hn⟩
    · exact hin jti ho hl (h.indexed jti ho)
    · exact .inl hn

theorem TokenInvariant.idle (h : TokenInvariant userId ttl s) {now : Nat} {issued : List String}
    (hn : s.now ≤ now) (his : s.issued ⊆ issued) : TokenInvariant userId ttl { s with now, issued } := by
  have hl : ∀ jti, s.store.Live now jti → s.store.Live s.now jti := by
    rintro jti ⟨tok, hto, hl⟩
    exact ⟨tok, hto, Cell.live_mono hn hl⟩
  exact h.quiet ⟨fun jti => @his jti, rfl, fun jti hjt => .inl (hl jti hjt)⟩
    (fun _ _ => .inl) hn (fun _ => .inl) (fun _ _ _ => id) (fun _ => .inl) fun _ _ _ => id

theorem TokenInvariant.del (h : TokenInvariant userId ttl s) (jti : String) :
    TokenInvariant userId ttl { s with
      store := ⟨s.store.tokens.del (refreshTokenKey jti), s.store.index⟩ } := by
  have ho : ∀ jti', jti' ≠ jti → s.store.tokens.del (refreshTokenKey jti) (refreshTokenKey jti') =
        s.store.tokens (refreshTokenKey jti') := fun jti' hne =>
    del_apply_of_ne (refreshTokenKey_injective.ne hne)
  have hne : ∀ jti', TokenStore.Live
      ⟨s.store.tokens.del (refreshTokenKey jti), s.store.index⟩ s.now jti' → jti' ≠ jti := by
    rintro jti' hl rfl
    exact not_live_del _ _ _ hl
  refine h.quiet ⟨fun _ => id, rfl, fun jti' hl => .inl ?_⟩ (fun jti' tok hto => .inl ?_) le_rfl
    (fun _ => .inl) (fun _ _ _ => id) (fun _ => .inl) fun jti' _ hl hkn => ?_
  · exact (live_congr (ho jti' (hne jti' hl))).mp hl
  · by_cases heq : jti' = jti
    · subst heq
      simp [Keyspace.del] at hto
    · rwa [← ho jti' heq]
  · rcases hkn with hst | hin
    · exact .inl hst
    · exact .inr (hin.congr (ho jti' (hne jti' hl)) rfl)

theorem TokenInvariant.storeNew (h : TokenInvariant userId ttl s) (hn : jti ∉ s.issued)
    (htt : ttl ≠ 0) :
    TokenInvariant userId ttl { s with
      store := ⟨s.store.tokens.set s.now (refreshTokenKey jti) userId (some ttl), s.store.index⟩
      issued := jti :: s.issued
      running := s.running ++ [.store jti .sadd] } := by
  have ho : ∀ jti', jti' ≠ jti →
      s.store.tokens.set s.now (refreshTokenKey jti) userId (some ttl) (refreshTokenKey jti') =
        s.store.tokens (refreshTokenKey jti') := fun jti' hne =>
    set_apply_of_ne (refreshTokenKey_injective.ne hne)
  refine h.quiet ⟨fun _ => mem_cons_of_mem _, rfl, fun jti' hl => ?_⟩ (fun jti' tok hto => ?_)
    le_rfl (fun c hc => ?_) (fun _ jti' _ hst => ?_) (fun _ => .inl) fun jti' _ hl hkn => ?_
  · by_cases heq : jti' = jti
    · subst heq
      exact .inr ⟨hn, .sadd, mem_append_right _ (mem_singleton.mpr rfl)⟩
    · exact .inl ((live_congr (ho jti' heq)).mp hl)
  · by_cases heq : jti' = jti
    · subst heq
      obtain rfl := some_inj.mp (set_apply_self.symm.trans hto)
      exact .inr ⟨mem_cons_self, htt, _, rfl, le_rfl⟩
    · exact .inl (by rwa [← ho jti' heq])
  · rcases mem_concat hc with hc | rfl
    · exact .inl hc
    · exact .inr ⟨mem_cons_self, by decide⟩
  · obtain ⟨phase, hp⟩ := hst
    exact ⟨phase, mem_append_left _ hp⟩
  · by_cases heq : jti' = jti
    · subst heq
      exact .inl ⟨.sadd, mem_append_right _ (mem_singleton.mpr rfl)⟩
    · rcases hkn with ⟨phase, hp⟩ | hin
      · exact .inl ⟨phase, mem_append_left _ hp⟩
      · exact .inr (hin.congr (ho jti' heq) rfl)

variable {oldJti newJti : String}

theorem Spared.rotate (h : Spared s existed ∅)
    (hro : ∀ p ∈ s.rotations, p.1 ∈ s.issued ∧ p.2 ∈ s.issued)
    (hn : newJti ∉ s.issued) (ho : s.store.Live s.now oldJti) (hne : oldJti ≠ newJti)
    {index : Keyspace (Finset String)} : Spared { s with
      store := ⟨s.store.rotated userId ttl s.now oldJti newJti, index⟩
      issued := newJti :: s.issued
      rotations := (oldJti, newJti) :: s.rotations } existed ∅ where
  issued t ht := mem_cons_of_mem _ (h.issued t ht)
  spared t ht jti hde := by
    rintro ⟨tok, hto, hl⟩
    have hf : ∀ p ∈ s.rotations, p.1 ≠ newJti := fun p hp heq => hn (heq ▸ (hro p hp).1)
    rcases derived_append hf hne hde with hpa | ⟨-, hpa⟩
    · have his := hpa.mem_issued (h.issued t ht) fun p hp => (hro p hp).2
      have hjt : jti ≠ newJti := fun heq => hn (heq ▸ his)
      have ht' := rotated_of_ne hjt hto
      exact h.spared t ht jti hpa ⟨tok, ht', hl⟩
    · -- The old token would have been spared.
      exact absurd (h.spared t ht oldJti hpa ho) (Finset.notMem_empty _)

theorem TokenInvariant.rotate (h : TokenInvariant userId ttl s)
    (hn : newJti ∉ s.issued) (ho : s.store.Live s.now oldJti) (htt : ttl ≠ 0)
    (hde : ∀ c ∈ s.running, c.isDeleting = false) {index : Keyspace (Finset String)}
    (hind : (s.store.index.sadd s.now (userTokensKey userId) newJti).expire s.now
      (userTokensKey userId) ttl = some index) : TokenInvariant userId ttl { s with
      store := ⟨s.store.rotated userId ttl s.now oldJti newJti, index⟩
      issued := newJti :: s.issued
      rotations := (oldJti, newJti) :: s.rotations } := by
  have hoIssued : oldJti ∈ s.issued := by
    obtain ⟨tok, hto, -⟩ := ho
    exact (h.stored oldJti tok hto).1
  have hne : oldJti ≠ newJti := fun heq => hn (heq ▸ hoIssued)
  refine ⟨?_, ?_, ?_, fun existed he => ?_, ?_⟩
  · intro jti tok hto
    by_cases heq : jti = newJti
    · subst heq
      obtain rfl := some_inj.mp (rotated_self.symm.trans hto)
      exact ⟨mem_cons_self, htt, _, rfl, le_rfl⟩
    · obtain ⟨his, hd⟩ := h.stored jti tok (rotated_of_ne heq hto)
      exact ⟨mem_cons_of_mem _ his, hd⟩
  · intro p hp
    rcases mem_cons.mp hp with rfl | hp
    · exact ⟨mem_cons_of_mem _ hoIssued, mem_cons_self⟩
    · exact ⟨mem_cons_of_mem _ (h.rotated p hp).1, mem_cons_of_mem _ (h.rotated p hp).2⟩
  · intro c hc
    have hinv := h.running c hc
    match c, hinv, hde c hc with
    | .store jti phase, hinv, _ => exact ⟨mem_cons_of_mem _ hinv.1, hinv.2⟩
    | .revoke existed .smembers, hinv, _ => exact fun t ht => mem_cons_of_mem _ (hinv t ht)
  · exact (h.revoked existed he).rotate h.rotated hn ho hne
  · -- The script adds the new token to the index and moves the index's deadline past all of them.
    rintro jti ⟨tok, hto, hl⟩
    have hli : ∀ d, jti ∈ insert newJti (s.store.index.smembers s.now (userTokensKey userId)) →
        tok.deadline = some d → d ≤ s.now + ttl * 1000 → TokenStore.Indexed userId
          ⟨s.store.rotated userId ttl s.now oldJti newJti, index⟩ jti := by
      intro d hm hd hle
      rw [← smembers_sadd_self] at hm
      exact @indexed_expire userId jti ttl s.now
        ⟨_, s.store.index.sadd s.now (userTokensKey userId) newJti⟩ index tok d hind htt hm hto
        hd hle
    by_cases heq : jti = newJti
    · subst heq
      obtain rfl := some_inj.mp (rotated_self.symm.trans hto)
      exact .inr (hli _ (Finset.mem_insert_self _ _) rfl le_rfl)
    · have ht' := rotated_of_ne heq hto
      obtain ⟨-, -, d, hd, hle⟩ := h.stored jti tok ht'
      refine (h.indexed jti ⟨tok, ht', hl⟩).imp id fun hin => ?_
      exact hli d (Finset.mem_insert_of_mem (hin.mem_smembers ⟨tok, ht', hl⟩)) hd hle

section

variable {i : Nat} {phase : StorePhase}

theorem storing_replace (hca : s.running[i]? = some (.store jti phase)) (phase' : StorePhase)
    {jti' : String} (h : s.Storing jti') : ∃ phase,
      .store jti' phase ∈ Machine.replace s.running i (some (.store jti phase')) := by
  obtain ⟨phase'', hp⟩ := h
  rcases mem_replace_or_eq (some (.store jti phase')) hca hp with hm | heq
  · exact ⟨_, hm⟩
  · obtain ⟨rfl, rfl⟩ := TokenCall.store.inj heq
    exact ⟨_, mem_replace_of_next rfl⟩

theorem TokenInvariant.sadd (h : TokenInvariant userId ttl s)
    (hca : s.running[i]? = some (.store jti phase)) :
    TokenInvariant userId ttl { s with
      store := ⟨s.store.tokens, s.store.index.sadd s.now (userTokensKey userId) jti⟩
      running := Machine.replace s.running i (some (.store jti .expire)) } := by
  refine h.quiet ⟨fun _ => id, rfl, fun _ => .inl⟩ (fun _ _ => .inl) le_rfl (fun c hc => ?_)
    (fun _ jti' _ => storing_replace hca .expire) (fun _ => .inl) fun jti' hl _ hkn => ?_
  · rcases mem_or_mem_of_replace hc with hc | hc
    · exact .inl hc
    · cases hc
      exact .inr ⟨(h.running _ (mem_of_getElem? hca)).1, by decide⟩
  · rcases hkn with hst | hin
    · exact .inl (storing_replace hca .expire hst)
    · exact .inr (hin.sadd hl)

theorem TokenInvariant.expire (h : TokenInvariant userId ttl s)
    (hca : s.running[i]? = some (.store jti phase))
    (hm : jti ∈ s.store.index.smembers s.now (userTokensKey userId))
    (hdel : ∀ c ∈ s.running, c.isDeleting = false) {index : Keyspace (Finset String)}
    (hind : s.store.index.expire s.now (userTokensKey userId) ttl = some index) :
    TokenInvariant userId ttl { s with
      store := ⟨s.store.tokens, index⟩
      running := Machine.replace s.running i none } := by
  have hli : ∀ jti', s.store.Live s.now jti' → jti' ∈ s.store.index.smembers s.now (userTokensKey userId) →
      TokenStore.Indexed userId ⟨s.store.tokens, index⟩ jti' := by
    rintro jti' ⟨tok, hto, -⟩ hm'
    obtain ⟨-, htt, d, hd, hle⟩ := h.stored jti' tok hto
    exact indexed_expire hind htt hm' hto hd hle
  refine h.quiet ⟨fun _ => id, rfl, fun _ => .inl⟩ (fun _ _ => .inl) le_rfl
    (fun c hc => .inl (mem_of_mem_replace_none hc)) ?_ (fun _ => .inl)
    fun jti' hl _ hkn => ?_
  · rintro ⟨c, hc, hde⟩
    rw [hdel c hc] at hde
    cases hde
  · rcases hkn with ⟨phase', hp⟩ | hin
    · rcases mem_replace_or_eq none hca hp with hst | heq
      · exact .inl ⟨phase', hst⟩
      · obtain ⟨rfl, rfl⟩ := TokenCall.store.inj heq
        exact .inr (hli jti' hl hm)
    · exact .inr (hli jti' hl (hin.mem_smembers hl))

theorem TokenInvariant.toDel (h : TokenInvariant userId ttl s) {phase : RevokePhase}
    (hca : s.running[i]? = some (.revoke existed phase)) (hsp : Spared s existed jtis)
    (ha : ∀ jti, s.store.Live s.now jti → s.Storing jti ∨ jti ∈ jtis) : TokenInvariant userId ttl { s with
      running := Machine.replace s.running i (some (.revoke existed (.del jtis))) } := by
  have hst : ∀ jti, s.Storing jti → ∃ phase, .store jti phase ∈
      Machine.replace s.running i (some (.revoke existed (.del jtis))) := by
    rintro jti ⟨phase', hp⟩
    rcases mem_replace_or_eq (some (.revoke existed (.del jtis))) hca hp with hm | heq
    · exact ⟨phase', hm⟩
    · cases heq
  have hq : Quiet s { s with
      running := Machine.replace s.running i (some (.revoke existed (.del jtis))) } :=
    ⟨fun _ => id, rfl, fun _ => .inl⟩
  refine h.quiet hq (fun _ _ => .inl) le_rfl (fun c hc => ?_) (fun _ jti _ => hst jti)
    (fun _ => .inl) fun jti _ _ => Or.imp_left (hst jti)
  rcases mem_or_mem_of_replace hc with hc | hc
  · exact .inl hc
  · cases hc
    exact .inr ⟨hsp.quiet h.rotated hq, fun jti hl => (ha jti hl).imp_left (hst jti)⟩

theorem TokenInvariant.delIndex (h : TokenInvariant userId ttl s)
    (hca : s.running[i]? = some (.revoke existed (.del ∅))) (index : Keyspace (Finset String)) :
    TokenInvariant userId ttl { s with
      store := ⟨s.store.tokens, index⟩
      running := Machine.replace s.running i none
      revoked := existed :: s.revoked } := by
  obtain ⟨hsp, ha⟩ := h.running _ (mem_of_getElem? hca)
  have hst : ∀ jti, s.Storing jti → ∃ phase,
      .store jti phase ∈ Machine.replace s.running i none := by
    rintro jti ⟨phase', hp⟩
    rcases mem_replace_or_eq none hca hp with hm | heq
    · exact ⟨phase', hm⟩
    · cases heq
  have hq : Quiet s { s with
      store := ⟨s.store.tokens, index⟩
      running := Machine.replace s.running i none
      revoked := existed :: s.revoked } := ⟨fun _ => id, rfl, fun _ => .inl⟩
  refine h.quiet hq (fun _ _ => .inl) le_rfl
    (fun c hc => .inl (mem_of_mem_replace_none hc)) (fun _ jti _ => hst jti)
    (fun existed' he => ?_) fun jti hl _ _ => ?_
  · rcases mem_cons.mp he with rfl | ho
    · exact .inr (hsp.quiet h.rotated hq)
    · exact .inl ho
  · -- Only tokens that are being stored are left.
    rcases ha jti hl with hs | hm
    · exact .inl (hst jti hs)
    · exact absurd hm (Finset.notMem_empty _)

theorem TokenInvariant.storeCommand (h : TokenInvariant userId ttl s) {o : Outcome}
    (hca : s.running[i]? = some (.store jti phase))
    {jti' : String} (hok : CallUndisturbed userId ttl s jti' o (.store jti phase)) {store : TokenStore}
    {next : Option StorePhase} (hst : phase.step userId ttl s.now s.store jti o = (store, next)) :
    TokenInvariant userId ttl { s with
      store
      running := Machine.replace s.running i (next.map (TokenCall.store jti)) } := by
  have hp := (h.running _ (mem_of_getElem? hca)).2
  cases phase with
  | setEx => exact absurd rfl hp
  | sadd =>
    obtain ⟨rfl, -⟩ := hok
    cases hst
    exact h.sadd hca
  | expire =>
    obtain ⟨hra, hr, hm, hde⟩ := hok
    simp only [StorePhase.step, if_neg hra] at hst
    split at hst
    · rename_i hno
      have hou := expire_eq_none_iff.mp hno
      omega
    · rename_i index hin
      cases hst
      exact h.expire hca hm hde hin

theorem TokenInvariant.revokeCommand (h : TokenInvariant userId ttl s) {phase : RevokePhase}
    {o : Outcome} (hca : s.running[i]? = some (.revoke existed phase))
    (hok : CallUndisturbed userId ttl s jti o (.revoke existed phase)) {store : TokenStore}
    {next : Option RevokePhase} (hst : phase.step userId s.now s.store jti o = some (store, next)) :
    match next with
    | some next => TokenInvariant userId ttl
      { s with store, running := Machine.replace s.running i (some (.revoke existed next)) }
    | none => TokenInvariant userId ttl
      { s with store, running := Machine.replace s.running i none, revoked := existed :: s.revoked } := by
  have hinv := h.running _ (mem_of_getElem? hca)
  cases phase with
  | smembers =>
    obtain ⟨rfl, hno⟩ := hok
    cases hst
    -- No token is being stored, so the index has all of them.
    have ha : ∀ jti, s.store.Live s.now jti →
        jti ∈ s.store.index.smembers s.now (userTokensKey userId) := by
      intro jti hl
      rcases h.indexed jti hl with ⟨phase, hm⟩ | hin
      · cases hno _ hm
      · exact hin.mem_smembers hl
    exact h.toDel hca ⟨hinv, fun _ _ jti _ hl => ha jti hl⟩ fun jti hl => .inr (ha jti hl)
  | del jtis =>
    simp only [RevokePhase.step] at hst
    split_ifs at hst with hm hf hem hf'
    · exact absurd hf (hok hm)
    · cases hst
      have hde := h.del jti
      have hne : ∀ jti', TokenStore.Live
          ⟨s.store.tokens.del (refreshTokenKey jti), s.store.index⟩ s.now jti' → jti' ≠ jti := by
        rintro jti' hl rfl
        exact not_live_del _ _ _ hl
      obtain ⟨hsp, ha⟩ := hde.running _ (mem_of_getElem? hca)
      refine hde.toDel hca ⟨hsp.issued, fun t ht jti' hd hl => ?_⟩ fun jti' hl => ?_
      · exact Finset.mem_erase_of_ne_of_mem (hne jti' hl) (hsp.spared t ht jti' hd hl)
      · exact (ha jti' hl).imp_right (Finset.mem_erase_of_ne_of_mem (hne jti' hl))
    all_goals
      cases hst
      rw [hem] at hca
      exact h.delIndex hca _

end

theorem TokenInvariant.storeCall (h : TokenInvariant userId ttl s) {o : Outcome}
    (hok : o ≠ .lost) (hst : s.step userId ttl (.store jti o) = some s') : TokenInvariant userId ttl s' := by
  simp only [TokenState.step] at hst
  split_ifs at hst with hn
  cases o with
  | lost => exact absurd rfl hok
  | failed =>
    cases hst
    rw [StorePhase.step, if_pos rfl, map_none, toList_none, append_nil]
    exact h.idle le_rfl (subset_cons_self _ _)
  | ok =>
    rw [StorePhase.step, if_neg (by decide), if_pos rfl] at hst
    cases hto : s.store.tokens.setEx s.now (refreshTokenKey jti) userId ttl with
    | none =>
      rw [hto] at hst
      cases hst
      rw [map_none, toList_none, append_nil]
      exact h.idle le_rfl (subset_cons_self _ _)
    | some tokens =>
      rw [hto] at hst
      cases hst
      obtain ⟨htt, -, rfl⟩ := setEx_eq_some_iff.mp hto
      exact h.storeNew hn htt

theorem TokenInvariant.rotateCall (h : TokenInvariant userId ttl s)
    {o : Outcome} (hok : Undisturbed userId ttl s (.rotate oldJti newJti o))
    (hst : s.step userId ttl (.rotate oldJti newJti o) = some s') : TokenInvariant userId ttl s' := by
  by_cases hn : newJti ∈ s.issued
  · rw [TokenState.step, if_pos hn] at hst
    cases hst
  rw [TokenState.step, if_neg hn] at hst
  by_cases hf : o = .failed
  · rw [if_pos hf] at hst
    cases hst
    exact h.idle le_rfl (subset_cons_self _ _)
  · rw [if_neg hf] at hst
    have hno : s.store.tokens (refreshTokenKey newJti) = none :=
      eq_none_iff_forall_ne_some.mpr fun tok hto => hn (h.stored newJti tok hto).1
    have hca := @rotate_case userId ttl s.now s.store oldJti newJti
    generalize s.store.rotate userId ttl s.now oldJti newJti = result at hst hca
    cases hca with
    | gone ho =>
      cases hst
      rw [hno]
      exact h.idle le_rfl (subset_cons_self _ _)
    | stopped ho hr =>
      cases hst
      have hn' : s.store.tokens.del (refreshTokenKey oldJti) (refreshTokenKey newJti) = none := by
        unfold Keyspace.del
        rw [Function.update_apply, hno, ite_self]
      rw [if_neg (by simp [hn'])]
      exact (h.del oldJti).idle le_rfl (subset_cons_self _ _)
    | rotated val index ho ht hin =>
      cases hst
      have hde : ∀ c ∈ s.running, c.isDeleting = false := by
        rcases hok with hok | hok | hok
        · exact absurd hok hf
        · rw [live_iff.mpr ho] at hok
          cases hok
        · exact hok
      rw [if_pos (by simp [rotated_self])]
      exact h.rotate hn ho ht hde hin

theorem TokenInvariant.revokeCall (h : TokenInvariant userId ttl s) : TokenInvariant userId ttl { s with
      running := s.running ++ [.revoke (s.issued.filter s.live) .smembers] } := by
  have hst : ∀ jti, s.Storing jti → ∃ phase, .store jti phase ∈
      s.running ++ [.revoke (s.issued.filter s.live) .smembers] :=
    fun jti ⟨phase, hp⟩ => ⟨phase, mem_append_left _ hp⟩
  refine h.quiet ⟨fun _ => id, rfl, fun _ => .inl⟩ (fun _ _ => .inl) le_rfl (fun c hc => ?_)
    (fun _ jti _ => hst jti) (fun _ => .inl) fun jti _ _ => Or.imp_left (hst jti)
  rcases mem_concat hc with hc | rfl
  · exact .inl hc
  · exact .inr fun t ht => mem_of_mem_filter ht

theorem TokenInvariant.step {a : TokenAction} (h : TokenInvariant userId ttl s)
    (hok : Undisturbed userId ttl s a)
    (hst : s.step userId ttl a = some s') : TokenInvariant userId ttl s' := by
  cases a with
  | tick ms =>
    cases hst
    exact h.idle (Nat.le_add_right _ _) (List.Subset.refl _)
  | store jti o => exact h.storeCall hok hst
  | rotate oldJti newJti o => exact h.rotateCall hok hst
  | revoke =>
    cases hst
    exact h.revokeCall
  | command i jti o =>
    simp only [TokenState.step] at hst
    split at hst
    · cases hst
    · rename_i jti' phase hca
      cases hst
      exact h.storeCommand hca (hok _ hca) rfl
    · rename_i existed phase hca
      split at hst
      · cases hst
      · rename_i store next hp
        cases hst
        exact h.revokeCommand hca (hok _ hca) hp
      · rename_i store hp
        cases hst
        exact h.revokeCommand hca (hok _ hca) hp

theorem tokenInvariant_init : TokenInvariant userId ttl .init where
  stored := by rintro _ _ ⟨⟩
  rotated := by rintro _ ⟨⟩
  running := by rintro _ ⟨⟩
  revoked := by rintro _ ⟨⟩
  indexed := by rintro _ ⟨_, ⟨⟩, _⟩

/-- If no token is stored or rotated while the tokens are being revoked, then after a revocation has
returned no token that was there when it began, and none rotated from one, can be rotated. -/
theorem undisturbed_revocation_final {as : List TokenAction}
    (hok : Along (TokenState.step userId ttl) (Undisturbed userId ttl) .init as)
    (hrun : run (TokenState.step userId ttl) .init as = some s) :
    ∀ existed ∈ s.revoked, ∀ t ∈ existed, ∀ jti, Derived s.rotations t jti →
      ∀ newJti, s.store.rotate userId ttl s.now jti newJti = (s.store, .nil) := by
  intro existed hexisted t ht jti hderived newJti
  have hinv := run_invariant (fun h hok hstep => TokenInvariant.step h hok hstep)
    (@tokenInvariant_init userId ttl) hok hrun
  have hgone : ¬ s.store.Live s.now jti := fun hlive =>
    Finset.notMem_empty _ ((hinv.revoked existed hexisted).spared t ht jti hderived hlive)
  have hcase := @rotate_case userId ttl s.now s.store jti newJti
  generalize s.store.rotate userId ttl s.now jti newJti = result at hcase
  cases hcase with
  | gone => rfl
  | stopped hold => exact absurd hold hgone
  | rotated val index hold => exact absurd hold hgone

def rotateThenRevoke : List TokenAction :=
  [.store "a" .ok, .command 0 "" .ok, .command 0 "" .ok, .tick 5, .rotate "a" "b" .ok, .revoke,
    .command 0 "" .ok, .command 0 "a" .ok, .command 0 "b" .lost, .command 0 "" .ok]

theorem rotateThenRevoke_final : ∃ s, run (TokenState.step "user" 100) .init rotateThenRevoke = some s ∧
      s.revoked = [["b"]] ∧ s.rotations = [("a", "b")] ∧
      s.store.rotate "user" 100 s.now "b" "c" = (s.store, .nil) := by
  refine reaches_with₂ (by decide +kernel) fun s hrun hrevoked _ => ?_
  refine undisturbed_revocation_final (by decide +kernel) hrun ["b"] ?_ "b" ?_ "b" .refl "c"
  · rw [hrevoked]
    exact mem_singleton.mpr rfl
  · exact mem_singleton.mpr rfl

/-- A rotation between the read of the index and the deletions: the token that was there when the
revocation began was rotated, and after the revocation has returned the new token is rotated again.
-/
theorem rotation_survives_revocation : ∃ s, run (TokenState.step "user" 100) .init
        [.store "a" .ok, .command 0 "" .ok, .command 0 "" .ok, .revoke, .command 0 "" .ok,
          .rotate "a" "b" .ok, .command 0 "a" .ok, .command 0 "" .ok] = some s ∧
      s.revoked = [["a"]] ∧ Derived s.rotations "a" "b" ∧
      (s.store.rotate "user" 100 s.now "b" "c").2 = .value "user" := by
  obtain ⟨s, hrun, hrevoked, hrotations, hreply⟩ := reaches (TokenState.step "user" 100) .init
    [.store "a" .ok, .command 0 "" .ok, .command 0 "" .ok, .revoke, .command 0 "" .ok, .rotate "a" "b" .ok,
    .command 0 "a" .ok, .command 0 "" .ok] (fun s => s.revoked = [["a"]] ∧ s.rotations = [("a", "b")] ∧
    (s.store.rotate "user" 100 s.now "b" "c").2 = .value "user") (by decide +kernel)
  refine ⟨s, hrun, hrevoked, ?_, hreply⟩
  exact .single (by rw [hrotations]; exact mem_singleton.mpr rfl)

end

end ConstructServer.Auth
