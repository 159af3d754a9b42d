import ConstructServer.KeyService.PreKeys
import ConstructServer.Library.Handout

/-!
# One-time keys are handed out once

A served classic key is deleted and a served Kyber key is expired, both in the statement that reads
it, so two bundles get the same key only if it comes back: an upload inserts it again after its row
is gone. Apart from that no two answered bundles carry the same one-time key, whatever runs at the
same time.
-/

namespace ConstructServer.KeyService

open Calls Handout Machine List Option
open Queue (Bytes)

def KeyState.classicStock (s : KeyState) (v : KeyRef × Bytes) : Prop :=
  activeKey s.oneTimePrekeys v.1 = some v.2

def KeyState.kyberStock (s : KeyState) (v : KeyRef × Bytes) : Prop :=
  (activeKey s.kyberOneTimePreKeys v.1).map KyberOneTimePreKey.publicKey = some v.2

def PreKeyBundle.classicKey (b : PreKeyBundle) : Option (KeyRef × Bytes) :=
  b.oneTimePrekey.map fun p => (⟨b.deviceId, p.1⟩, p.2)

def PreKeyBundle.kyberKey (b : PreKeyBundle) : Option (KeyRef × Bytes) :=
  b.kyberOneTimePreKey.map fun p => (⟨b.deviceId, p.1⟩, p.2.publicKey)

def InsertsUnserved (s : KeyState) : KeyStatement → Prop
  | .insertClassic ref key =>
    s.oneTimePrekeys.get? ref = none → (ref, key) ∉ s.served.map Prod.snd
  | .insertKyber ref key _ =>
    s.kyberOneTimePreKeys.get? ref = none → (ref, key.publicKey) ∉ s.servedKyber.map Prod.snd
  | _ => True

instance decidableInsertsUnserved (s : KeyState) : (q : KeyStatement) → Decidable (InsertsUnserved s q) := fun q => by
  apply @KeyStatement.casesOn (fun q => Decidable (InsertsUnserved s q)) q <;> intros <;>
    dsimp only [InsertsUnserved] <;> infer_instance

variable {cr : Crypto} {n : Nat} {q : KeyStatement} {c : KeyCall} {s s' : KeyState}

/-! ### What one statement does -/

theorem KeyEffect.handout (h : KeyEffect n s q s') (hca : InsertsUnserved s q) :
    Step n s.classicStock s.served s'.classicStock s'.served ∧
      Step n s.kyberStock s.servedKyber s'.kyberStock s'.servedKyber := by
  cases h with
  | aside => exact ⟨.keep fun v hv => .inl hv, .keep fun v hv => .inl hv⟩
  | expireClassic device =>
    refine ⟨.keep fun v hv => .inl ?_, .keep fun v hv => .inl hv⟩
    simp only [KeyState.classicStock, activeKey_expireAll, ite_none_left_eq_some] at hv
    exact hv.2
  | expireKyber device =>
    refine ⟨.keep fun v hv => .inl hv, .keep fun v hv => .inl ?_⟩
    simp only [KeyState.kyberStock, activeKey_expireAll] at hv
    split at hv
    · cases hv
    · exact hv
  | insertClassic ref key =>
    refine ⟨.keep fun v hv => ?_, .keep fun v hv => .inl hv⟩
    simp only [KeyState.classicStock, activeKey_insertNew] at hv
    split at hv
    · rename_i hn
      obtain ⟨v₁, v₂⟩ := v
      cases hv
      cases hn.1
      exact .inr (hca hn.2)
    · exact .inl hv
  | insertKyber ref key read =>
    refine ⟨.keep fun v hv => .inl hv, .keep fun v hv => ?_⟩
    simp only [KeyState.kyberStock, activeKey_insertNew] at hv
    split at hv
    · rename_i hn
      obtain ⟨v₁, v₂⟩ := v
      cases hv
      cases hn.1
      exact .inr (hca hn.2)
    · exact .inl hv
  | consumeClassic device id hk =>
    refine ⟨.take _ hk fun w hw => ?_, .keep fun v hv => .inl hv⟩
    simp only [KeyState.classicStock, activeKey_remove, ite_none_left_eq_some] at hw
    exact ⟨hw.2, fun heq => hw.1 (congrArg Prod.fst heq)⟩
  | consumeKyber device id hk =>
    refine ⟨.keep fun v hv => .inl hv, .take _ ?_ fun w hw => ?_⟩
    · simp only [KeyState.kyberStock, hk, map_some]
    · simp only [KeyState.kyberStock, activeKey_expireOne] at hw
      split at hw
      · cases hw
      · rename_i hne
        exact ⟨hw, fun heq => hne (congrArg Prod.fst heq)⟩
  | deleteExpiredClassic =>
    refine ⟨.keep fun v hv => .inl ?_, .keep fun v hv => .inl hv⟩
    simpa only [KeyState.classicStock, activeKey_deleteExpired] using hv
  | deleteExpiredKyber =>
    refine ⟨.keep fun v hv => .inl hv, .keep fun v hv => .inl ?_⟩
    simpa only [KeyState.kyberStock, activeKey_deleteExpired] using hv

theorem KeyEffect.answered_eq (h : KeyEffect n s q s') : s'.answered = s.answered := by
  cases h <;> rfl

/-! ### The promises of the calls -/

/-- The session has not answered, and it has taken these keys. -/
structure Holds (n : Nat) (classic kyber : List (KeyRef × Bytes)) (s : KeyState) : Prop where
  unanswered : n ∉ s.answered.map Prod.fst
  classic : taken n s.served = classic
  kyber : taken n s.servedKyber = kyber

/-- Every session that has answered did so with the keys that it had taken. -/
structure Accounted (s : KeyState) : Prop where
  sessions : (s.answered.map Prod.fst).Nodup
  classic : ∀ p ∈ s.answered, p.2.filterMap PreKeyBundle.classicKey = taken p.1 s.served
  kyber : ∀ p ∈ s.answered, p.2.filterMap PreKeyBundle.kyberKey = taken p.1 s.servedKyber

def servedOnce : Discipline KeyStatement (Input (Option UInt32)) KeyState KeyCall where
  inv s := UsedOnce s.classicStock s.served ∧ UsedOnce s.kyberStock s.servedKyber ∧ Accounted s
  fresh n s := Holds n [] [] s
  rely n _ s s' := ∀ classic kyber, Holds n classic kyber s → Holds n classic kyber s'
  begins _ _ := True
  compat _ _ := True
  care _ q _ s := InsertsUnserved s q
  refl _ _ _ _ _ h := h
  trans h h' classic kyber hs := h' classic kyber (h classic kyber hs)

theorem KeyEffect.holds_of_ne (h : KeyEffect n s q s') (hca : InsertsUnserved s q) {m : Nat}
    (hne : n ≠ m) {classic kyber : List (KeyRef × Bytes)} (hm : Holds m classic kyber s) :
    Holds m classic kyber s' := by
  obtain ⟨hcl, hky⟩ := h.handout hca
  exact ⟨h.answered_eq ▸ hm.unanswered, (hcl.taken_of_ne hne).trans hm.classic,
    (hky.taken_of_ne hne).trans hm.kyber⟩

theorem KeyEffect.accounted (h : KeyEffect n s q s') (hca : InsertsUnserved s q)
    (hop : n ∉ s.answered.map Prod.fst) (hs : Accounted s) : Accounted s' := by
  obtain ⟨hcl, hky⟩ := h.handout hca
  have hne : ∀ p ∈ s.answered, n ≠ p.1 := fun p hp heq =>
    hop (heq ▸ mem_map_of_mem hp)
  refine ⟨h.answered_eq ▸ hs.sessions, fun p hp => ?_, fun p hp => ?_⟩
  · rw [h.answered_eq] at hp
    exact (hs.classic p hp).trans (hcl.taken_of_ne (hne p hp)).symm
  · rw [h.answered_eq] at hp
    exact (hs.kyber p hp).trans (hky.taken_of_ne (hne p hp)).symm

theorem keeps_effect (hinv : servedOnce.inv s) (hop : n ∉ s.answered.map Prod.fst)
    (hca : InsertsUnserved s q) (h : KeyEffect n s q s') : servedOnce.Keeps n c s s' := by
  obtain ⟨hcl, hky⟩ := h.handout hca
  exact ⟨⟨hinv.1.step hcl, hinv.2.1.step hky, h.accounted hca hop hinv.2.2⟩,
    fun m hm hf => h.holds_of_ne hca (Nat.ne_of_lt hm) hf,
    fun m _ hm _ _ _ => h.holds_of_ne hca hm.symm⟩

theorem keeps_exec {input : Input (Option UInt32)} {r : Option q.Reply} (hinv : servedOnce.inv s)
    (hop : n ∉ s.answered.map Prod.fst) (hca : InsertsUnserved s q)
    (h : keyExec cr n q input s = some (r, s')) : servedOnce.Keeps n c s s' ∧
      n ∉ s'.answered.map Prod.fst := by
  cases fallible_case h with
  | failed => exact ⟨.refl hinv, hop⟩
  | effect he =>
    have hk := keyEffect_of_effect he
    exact ⟨keeps_effect hinv hop hca hk, hk.answered_eq ▸ hop⟩

/-! ### Bundles -/

variable {classic kyber : List (KeyRef × Bytes)}

theorem safe_statement {E : Type} {e : E} {post : q.Reply → KeyState → Prop}
    (hs : Holds n classic kyber s) (hef : ∀ {t t' : KeyState} {choice x},
      Holds n classic kyber t → t.effect cr n q choice = some (x, t') → post x t') :
    servedOnce.Safe (keyExec cr) n c (statement q e).run (onOk post) s := by
  refine safe_demand fun t input r t' hinv hre hca he => ?_
  have ht := hre _ _ hs
  refine ⟨(keeps_exec hinv ht.unanswered hca he).1, ?_⟩
  cases fallible_case he with
  | failed => trivial
  | effect h hr =>
    cases r with
    | none => trivial
    | some x =>
      cases hr x rfl
      exact hef ht h

variable {consumeOtpk : Bool}

theorem safe_consumeIf {α : Type} {p : KeyCore (Option α)} {post : Option α → KeyState → Prop}
    (hno : post none s)
    (hp : servedOnce.Safe (keyExec cr) n c p.run (onOk post) s) :
    servedOnce.Safe (keyExec cr) n c (consumeIf consumeOtpk p).run (onOk post) s := by
  cases consumeOtpk with
  | false => exact hno
  | true => exact hp

variable {device : String}

theorem safe_consumeClassic (hs : Holds n classic kyber s) : servedOnce.Safe (keyExec cr) n c
      (consumeIf consumeOtpk (statement (.consumeClassic device) databaseError)).run (onOk fun otp => Holds n
        (classic ++ (otp.map fun p => (KeyRef.mk device p.1, p.2)).toList) kyber) s := by
  have hno : ∀ {t : KeyState}, Holds n classic kyber t → Holds n (classic ++ []) kyber t := by
    intro t ht
    rwa [append_nil]
  refine safe_consumeIf (hno hs) (safe_statement hs fun {t t' choice x} ht h => ?_)
  simp only [KeyState.effect] at h
  split at h
  · cases h
    exact hno ht
  · obtain ⟨key, -, heq⟩ := map_eq_some_iff.mp h
    cases heq
    exact ⟨ht.unanswered, taken_cons_self.trans (by rw [ht.classic]; rfl), ht.kyber⟩

theorem safe_consumeKyber (hs : Holds n classic kyber s) : servedOnce.Safe (keyExec cr) n c
      (consumeIf consumeOtpk (statement (.consumeKyber device) databaseError)).run (onOk fun otp => Holds n classic
        (kyber ++ (otp.map fun p => (KeyRef.mk device p.1, p.2.publicKey)).toList)) s := by
  have hno : ∀ {t : KeyState}, Holds n classic kyber t → Holds n classic (kyber ++ []) t := by
    intro t ht
    rwa [append_nil]
  refine safe_consumeIf (hno hs) (safe_statement hs fun {t t' choice x} ht h => ?_)
  simp only [KeyState.effect] at h
  split at h
  · cases h
    exact hno ht
  · obtain ⟨key, -, heq⟩ := map_eq_some_iff.mp h
    cases heq
    exact ⟨ht.unanswered, ht.classic, taken_cons_self.trans (by rw [ht.kyber]; rfl)⟩

def HoldsBundles (n : Nat) (bundles : List PreKeyBundle) (s : KeyState) : Prop :=
  Holds n (bundles.filterMap PreKeyBundle.classicKey) (bundles.filterMap PreKeyBundle.kyberKey) s

variable {bundles : List PreKeyBundle}

theorem safe_serveBundle {row : DeviceRow} (hs : HoldsBundles n bundles s) :
    servedOnce.Safe (keyExec cr) n c (serveBundle consumeOtpk device row).run
      (onOk fun bundle => HoldsBundles n (bundles ++ [bundle])) s := by
  refine safe_then _ (safe_consumeClassic hs) fun otp t ht => ?_
  refine safe_then _ (safe_consumeKyber ht) fun kyberOtp u hu => ?_
  show HoldsBundles n (bundles ++ [⟨device, row, otp, kyberOtp⟩]) u
  have hl : ∀ f : PreKeyBundle → Option (KeyRef × Bytes), ∀ b : PreKeyBundle,
      (bundles ++ [b]).filterMap f = bundles.filterMap f ++ (f b).toList := by
    intro f b
    rw [filterMap_append]
    cases hb : f b <;> simp [hb]
  rw [HoldsBundles, hl, hl]
  exact hu

theorem safe_serveBundles {devices : List (String × DeviceRow)} (hs : HoldsBundles n bundles s) :
    servedOnce.Safe (keyExec cr) n c (serveBundles consumeOtpk devices).run
      (onOk fun more => HoldsBundles n (bundles ++ more)) s := by
  induction devices generalizing s bundles with
  | nil =>
    show HoldsBundles n (bundles ++ []) s
    rwa [append_nil]
  | cons p devices ih =>
    refine safe_then _ (safe_serveBundle hs) fun bundle t ht => ?_
    refine safe_then _ (ih ht) fun more u hu => ?_
    show HoldsBundles n (bundles ++ bundle :: more) u
    rwa [append_cons]

theorem ends_bundles (hs : HoldsBundles n bundles s) :
    servedOnce.Ends keyFinish n c (.bundles bundles) s := by
  intro ⟨hcl, hky, hac⟩
  have ho : ∀ {m : Nat}, n ≠ m → ∀ {classic kyber}, Holds m classic kyber s →
      Holds m classic kyber (keyFinish n c (.bundles bundles) s) := by
    intro m hne classic kyber hm
    refine ⟨?_, hm.classic, hm.kyber⟩
    show m ∉ n :: s.answered.map Prod.fst
    exact fun hme => (mem_cons.mp hme).elim (fun heq => hne heq.symm) hm.unanswered
  refine ⟨⟨hcl, hky, ?_⟩, fun m hm hf => ho (Nat.ne_of_lt hm) hf, fun m _ hm _ _ _ => ho hm.symm⟩
  refine ⟨nodup_cons.mpr ⟨hs.unanswered, hac.sessions⟩, fun p hp => ?_, fun p hp => ?_⟩
  · rcases mem_cons.mp hp with rfl | hp
    · exact hs.classic.symm
    · exact hac.classic p hp
  · rcases mem_cons.mp hp with rfl | hp
    · exact hs.kyber.symm
    · exact hac.kyber p hp

theorem ends_refused {status : Status} : servedOnce.Ends keyFinish n c (.refused status) s := by
  intro hinv
  cases c <;> exact .refl hinv

theorem safe_answer {α : Type} {p : KeyHandler α} {f : α → KeyAnswer}
    (hp : servedOnce.Safe (keyExec cr) n c p.run (onOk fun a => servedOnce.Ends keyFinish n c (f a)) s) :
    servedOnce.Safe (keyExec cr) n c (p.answer f) (servedOnce.Ends keyFinish n c) s := by
  refine Discipline.safe_bind.mpr (hp.mono fun r t hr => ?_)
  cases r with
  | ok a => exact hr
  | error status => exact ends_refused

theorem safe_getPreKeyBundle {user : String} {device : Option String}
    (hs : Holds n [] [] s) : servedOnce.Safe (keyExec cr) n c (getPreKeyBundle user device consumeOtpk).run
      (onOk fun bundle => HoldsBundles n [bundle]) s := by
  refine safe_then (fun _ => Holds n [] []) (safe_ensure (fun _ => hs) fun _ => trivial) fun _ t ht => ?_
  refine safe_then (fun _ => Holds n [] []) (safe_statement ht fun ht h => ?_) fun found u hu => ?_
  · obtain ⟨_, -, heq⟩ := map_eq_some_iff.mp h
    cases heq
    exact ht
  · cases found with
    | none => trivial
    | some p => exact safe_mapErr (safe_serveBundle (show HoldsBundles n [] u from hu))

theorem safe_getPreKeyBundles {user : String} {devices : Option (List String)}
    (hs : Holds n [] [] s) : servedOnce.Safe (keyExec cr) n c (getPreKeyBundles user devices consumeOtpk).run
      (onOk fun set => HoldsBundles n set.bundles) s := by
  refine safe_then (fun _ => Holds n [] []) (safe_ensure (fun _ => hs) fun _ => trivial) fun _ t ht => ?_
  refine safe_then (fun _ => Holds n [] []) (safe_statement ht fun ht h => ?_) fun active u hu => ?_
  · obtain ⟨_, -, heq⟩ := map_eq_some_iff.mp h
    cases heq
    exact ht
  refine safe_then (fun _ => Holds n [] []) (safe_statement hu fun ht h => ?_) fun rows v hv => ?_
  · obtain ⟨_, -, heq⟩ := map_eq_some_iff.mp h
    cases heq
    exact ht
  · exact safe_then _ (safe_mapErr (safe_serveBundles (show HoldsBundles n [] v from hv))) fun bundles w hw => hw

/-! ### All calls -/

theorem ends_uploaded {authedDeviceId : String} {req : UploadRequest} {served servedKyber : Nat} :
    servedOnce.Ends keyFinish n (.upload authedDeviceId req) (.uploaded served servedKyber) s := by
  intro hinv
  simp only [keyFinish]
  split
  · exact ⟨⟨hinv.1, hinv.2.1, hinv.2.2.sessions, hinv.2.2.classic, hinv.2.2.kyber⟩,
      fun m _ (hm : Holds m [] [] s) => ⟨hm.unanswered, hm.classic, hm.kyber⟩,
      fun m _ _ _ _ _ hm => ⟨hm.unanswered, hm.classic, hm.kyber⟩⟩
  · exact .refl hinv

theorem safe_other {α : Type} {p : Program KeyStatement (fun q => Option q.Reply) α}
    {post : α → KeyState → Prop} (hpo : ∀ a s, post a s) (hs : Holds n [] [] s) :
    servedOnce.Safe (keyExec cr) n c p post s := by
  refine Discipline.safe_of_keeps (fun s => n ∉ s.answered.map Prod.fst) (fun t t' ht hre => ?_)
    (fun q input t r t' _ hinv ht hca he => keeps_exec hinv ht hca he)
    (fun a t _ => hpo a t) p.asks_true hs.unanswered
  exact (hre _ _ ⟨ht, rfl, rfl⟩).unanswered

theorem safe_keyBody (hs : Holds n [] [] s) :
    servedOnce.Safe (keyExec cr) n c (keyBody cr c s) (servedOnce.Ends keyFinish n c) s := by
  have hok : ∀ {α : Type} {f : α → KeyAnswer}, (∀ a t, servedOnce.Ends keyFinish n c (f a) t) →
      ∀ (r : Except Status α) t, onOk (fun a => servedOnce.Ends keyFinish n c (f a)) r t := by
    intro α f hf r t
    cases r with
    | ok a => exact hf a t
    | error e => trivial
  cases c with
  | getBundle user device consumeOtpk =>
    refine safe_answer ((safe_getPreKeyBundle hs).mono fun r t hr => ?_)
    cases r with
    | ok bundle => exact ends_bundles hr
    | error e => trivial
  | getBundles user devices consumeOtpk =>
    refine safe_answer ((safe_getPreKeyBundles hs).mono fun r t hr => ?_)
    cases r with
    | ok set => exact ends_bundles hr
    | error e => trivial
  | upload authedDeviceId req => exact safe_answer (safe_other (hok fun _ _ => ends_uploaded) hs)
  | rotate authedDeviceId req => exact safe_answer (safe_other (hok fun _ _ hinv => .refl hinv) hs)
  | cleanupClassic =>
    intro t input r t' hinv hre hca he
    exact ⟨(keeps_exec (q := .deleteExpiredClassic) hinv (hre _ _ hs).unanswered hca he).1, fun hinv => .refl hinv⟩
  | cleanupKyber =>
    intro t input r t' hinv hre hca he
    exact ⟨(keeps_exec (q := .deleteExpiredKyber) hinv (hre _ _ hs).unanswered hca he).1, fun hinv => .refl hinv⟩

theorem keeps_keyTick : servedOnce.Bears keyTick := fun _ s hinv =>
  ⟨⟨hinv.1, hinv.2.1, hinv.2.2.sessions, hinv.2.2.classic, hinv.2.2.kyber⟩,
    fun n (hn : Holds n [] [] s) => ⟨hn.unanswered, hn.classic, hn.kyber⟩,
    fun _ _ _ _ hn => ⟨hn.unanswered, hn.classic, hn.kyber⟩⟩

def KeyState.answeredKeys (s : KeyState) (key : PreKeyBundle → Option (KeyRef × Bytes)) :
    List (KeyRef × Bytes) :=
  (s.answered.flatMap Prod.snd).filterMap key

theorem nodup_answeredKeys {key : PreKeyBundle → Option (KeyRef × Bytes)}
    {stock : KeyRef × Bytes → Prop} {log : List (Nat × KeyRef × Bytes)} (hl : UsedOnce stock log)
    (hse : (s.answered.map Prod.fst).Nodup)
    (hk : ∀ p ∈ s.answered, p.2.filterMap key = taken p.1 log) : (s.answeredKeys key).Nodup := by
  have heq : s.answeredKeys key = (s.answered.map Prod.fst).flatMap fun n => taken n log := by
    rw [KeyState.answeredKeys, filterMap_flatMap, flatMap_map]
    exact flatMap_congr hk
  rw [heq]
  exact hl.nodup_flatMap_taken hse

attribute [reducible] servedOnce

/-- No two answered bundles carry the same classic or the same Kyber one-time key, as long as no key
is inserted again after it was served. -/
theorem one_time_keys_served_once (cr : Crypto) {s : KeyState} (hserved : s.served = [])
    (hservedKyber : s.servedKyber = []) (hanswered : s.answered = []) {as : List KeyAction}
    {pool : KeyPool} (hcareful : Along (keyStep cr) servedOnce.Careful (.init s) as)
    (hrun : run (keyStep cr) (.init s) as = some pool) :
    (pool.store.answeredKeys PreKeyBundle.classicKey).Nodup ∧
      (pool.store.answeredKeys PreKeyBundle.kyberKey).Nodup := by
  have hinit : servedOnce.inv s := by
    refine ⟨⟨?_, ?_⟩, ⟨?_, ?_⟩, ⟨?_, ?_, ?_⟩⟩
    all_goals simp [hserved, hservedKyber, hanswered]
  have hfresh : ∀ n, servedOnce.fresh n s := by
    intro n
    refine ⟨?_, ?_, ?_⟩
    all_goals simp [hserved, hservedKyber, hanswered, taken]
  obtain ⟨hclassic, hkyber, hacc⟩ := key_run_invariant
    (fun n c t _ hfresh _ => safe_keyBody hfresh) keeps_keyTick
    hinit hfresh hcareful hrun
  exact ⟨nodup_answeredKeys hclassic hacc.sessions hacc.classic, nodup_answeredKeys hkyber hacc.sessions hacc.kyber⟩

def uploadAndServe (first second : UInt32 × Bytes) : List KeyAction :=
  [first, second].flatMap fun key =>
    keyCall (.upload "d" (demoUpload [key] false)) (List.replicate 10 none) ++
      keyCall (.getBundle demoUser (some "d") true) [none, some key.1, none]

/-- Two different keys are served, each in its own bundle. -/
theorem one_time_keys_served_once_demo :
    ∃ pool, run (keyStep demoCrypto) (.init demoKeys) (uploadAndServe (1, [7]) (2, [8])) = some pool ∧
      pool.store.answeredKeys PreKeyBundle.classicKey = [(⟨"d", 2⟩, [8]), (⟨"d", 1⟩, [7])] ∧
      (pool.store.answeredKeys PreKeyBundle.classicKey).Nodup ∧
        (pool.store.answeredKeys PreKeyBundle.kyberKey).Nodup :=
  reaches_with (by decide +kernel) fun _ hrun _ => one_time_keys_served_once demoCrypto rfl rfl rfl (by decide +kernel) hrun

/-- The client repeats an upload whose answer it has lost, after the key was served: the row is
gone, so the key is inserted again and served again. -/
theorem one_time_key_served_twice :
    ∃ pool, run (keyStep demoCrypto) (.init demoKeys) (uploadAndServe (1, [7]) (1, [7])) = some pool ∧
      pool.store.answeredKeys PreKeyBundle.classicKey = [(⟨"d", 1⟩, [7]), (⟨"d", 1⟩, [7])] ∧
      ¬((pool.store.answeredKeys PreKeyBundle.classicKey).Nodup ∧
        (pool.store.answeredKeys PreKeyBundle.kyberKey).Nodup) := by
  refine reaches_with (by decide +kernel) fun pool _ hout h => ?_
  have hnodup := h.1
  rw [hout] at hnodup
  exact absurd hnodup (by decide)

end ConstructServer.KeyService
