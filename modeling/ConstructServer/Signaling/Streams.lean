import ConstructServer.Signaling.Service

/-!
# The streams of a device

A stream of a device puts its channel into the map under the id of the device, in the place of the
channel of an older stream, and when it closes, it takes out whatever is there under that id and
ends the call that the device is in. A stream that closes after a newer one has opened therefore
cuts the newer one off. If no stream begins to close while a newer one is open, and none opens while
another one is closing, the newest stream of the device stays reachable for as long as it is open,
and no older one ends the call.

Everything but the channels may change in any way at any time: the calls, the pointers, Redis, the
clock.
-/

namespace ConstructServer.Signaling.Streams

open Calls Redis Machine List Function

/-! ### Streams side by side -/

structure StreamOp where
  userId : String
  deviceId : String
deriving DecidableEq

structure StreamLog where
  newest : Option Nat
  leaving : Bool
  mine : List (Nat × Nat)
  closing : List Nat
  ended : Bool

def StreamLog.empty : StreamLog := ⟨none, false, [], [], false⟩

def StreamLog.judge (n : Nat) (receivers : List Nat) (g : StreamLog) : StreamLog :=
  if ∃ p ∈ g.mine, p.1 = n ∧ ∃ ch ∈ g.newest, ch ≠ p.2 ∧ ch ∈ receivers then { g with ended := true } else g

def isHangup : ForwardedSignal → Bool
  | .signal ⟨_, some (.hangup _), _⟩ => true
  | _ => false

def elsewhere (t s : SigState Unit) : SigState Unit :=
  { t with
    memory := fun i => { t.memory i with channels := (s.memory i).channels }
    nextChannel := s.nextChannel
    receivers := s.receivers }

section

variable (U D : String)

def noteStream (n : Nat) (q : SigStatement Unit) (x : q.Answer) (s : SigState Unit) (g : StreamLog) :
    StreamLog :=
  match q, x with
  | .map _ (.register userId deviceId), ch =>
    if userId = U ∧ deviceId = D then { g with newest := some ch, leaving := false, mine := (n, ch) :: g.mine }
    else g
  | .map _ (.hangUp ch), _ =>
    { g with
      leaving := g.leaving || decide (g.newest = some ch)
      closing := if n ∈ g.mine.map Prod.fst then n :: g.closing else g.closing }
  | .map _ (.removeCall _), some _ => g.judge n s.receivers
  | .map _ (.sendLocal _ _ signal), _ => if isHangup signal then g.judge n s.receivers else g
  | .redis (.publish _ _ _ signal), _ => if isHangup signal then g.judge n s.receivers else g
  | _, _ => g

def noteStreamEnd (n : Nat) (_ : StreamOp) (_ : Unit) (w : SigState Unit × StreamLog) :
    SigState Unit × StreamLog :=
  (w.1, { w.2 with closing := w.2.closing.filter (· ≠ n) })

def streamExec : Nat → (q : SigStatement Unit) → Input (SigPick Unit) → SigState Unit × StreamLog →
    Option (q.Answer × (SigState Unit × StreamLog)) :=
  noted SigState.exec (noteStream U D)

abbrev StreamPool : Type :=
  Pool (SigStatement Unit) SigStatement.Answer Unit StreamOp (SigState Unit × StreamLog)

abbrev StreamAction : Type := Action (Input (SigPick Unit)) StreamOp (SigState Unit)

def streamStep (pool : StreamPool) (a : StreamAction) : Option StreamPool :=
  pool.step (streamExec U D) (fun op _ => signalStream () op.userId op.deviceId) noteStreamEnd
    (fun t w => (elsewhere t w.1, w.2)) a


def channels (s : SigState Unit) : List (String × Nat) := (s.memory ()).channels U

structure StreamInv (w : SigState Unit × StreamLog) : Prop where
  below : ∀ ch ∈ w.2.newest, ch < w.1.nextChannel
  entry : ∀ ch ∈ w.2.newest, w.2.leaving = false → (channels U w.1).filter (·.1 = D) = [(D, ch)]
  quiet : w.2.newest ≠ none → w.2.leaving = false → w.2.closing = []
  deaf : ∀ ch ∈ w.2.newest, w.2.leaving = true → ch ∉ w.1.receivers
  just : w.2.ended = false
  mineBelow : ∀ p ∈ w.2.mine, p.2 < w.1.nextChannel
  unique : ∀ p ∈ w.2.mine, ∀ p' ∈ w.2.mine, p.2 = p'.2 → p.1 = p'.1

structure StreamRely (n : Nat) (_ : StreamOp) (w w' : SigState Unit × StreamLog) : Prop where
  next : w.1.nextChannel ≤ w'.1.nextChannel
  newest : ∀ ch ∈ w'.2.newest, ch < w.1.nextChannel → w.2.newest = some ch
  mine : ∀ ch, (n, ch) ∈ w.2.mine →
    (n, ch) ∈ w'.2.mine ∧ (w'.2.newest = some ch → w.2.newest = some ch ∧ w'.2.leaving = w.2.leaving)
  other : n ∉ w.2.mine.map Prod.fst → n ∉ w'.2.mine.map Prod.fst
  closing : n ∈ w.2.closing → n ∈ w'.2.closing

/-- A stream of the device opens only while none of them is closing, and begins to close only if it
is the newest or the newest one has. -/
def newestLast : Discipline (SigStatement Unit) (Input (SigPick Unit))
    (SigState Unit × StreamLog) StreamOp where
  inv := StreamInv U D
  fresh n w := n ∉ w.2.mine.map Prod.fst ∧ n ∉ w.2.closing
  rely := StreamRely
  begins _ _ := True
  compat _ _ := True
  care c q _ w := match q with
    | .map _ (.register userId deviceId) => userId = U → deviceId = D → w.2.closing = []
    | .map _ (.hangUp ch) => c = ⟨U, D⟩ → w.2.newest = some ch ∨ w.2.leaving = true
    | _ => True
  refl _ _ _ := ⟨le_rfl, fun _ h _ => h, fun _ h => ⟨h, fun h => ⟨h, rfl⟩⟩, id, id⟩
  trans h h' := by
    refine ⟨h.next.trans h'.next, fun ch hch hlt => ?_, fun ch hmem => ?_, fun hn => h'.other (h.other hn),
      fun hn => h'.closing (h.closing hn)⟩
    · exact h.newest ch (h'.newest ch hch (hlt.trans_le h.next)) hlt
    · obtain ⟨hmem', hover⟩ := h.mine ch hmem
      obtain ⟨hmem'', hover'⟩ := h'.mine ch hmem'
      refine ⟨hmem'', fun hnewest => ?_⟩
      obtain ⟨hnewest', heq'⟩ := hover' hnewest
      obtain ⟨hnewest₀, heq⟩ := hover hnewest'
      exact ⟨hnewest₀, heq'.trans heq⟩

end

/-! ### A signal for a device -/

section

variable {receivers : List Nat} {D : String} {ch : Nat} {signal : ForwardedSignal}
  {order : List (String × Nat)}

theorem mem_fanOut (hre : ch ∈ receivers) (hor : order.filter (·.1 = D) = [(D, ch)]) :
    (ch, signal) ∈ fanOut receivers (some D) signal order 0 := by
  induction order with
  | nil => cases hor
  | cons p order ih =>
    obtain ⟨device, channel⟩ := p
    unfold fanOut
    by_cases hde : device = D
    · -- The channel is the one of the device, and nothing was sent yet.
      subst hde
      rw [filter_cons_of_pos (by simp)] at hor
      obtain ⟨heq, -⟩ := cons_eq_cons.mp hor
      cases heq
      rw [if_neg (by simp), if_neg (by decide), if_pos hre]
      exact mem_cons_self
    · rw [filter_cons_of_neg (by simpa using hde)] at hor
      rw [if_pos ⟨D, rfl, hde⟩]
      exact ih hor

theorem reached {list : List (String × Nat)} (hre : ch ∈ receivers)
    (hl : list.filter (·.1 = D) = [(D, ch)]) (hpe : order.Perm list) :
    (ch, signal) ∈ fanOut receivers (some D) signal order 0 := by
  refine mem_fanOut hre ?_
  have hf := hpe.filter (fun p => decide (p.1 = D))
  rw [hl] at hf
  exact perm_singleton.mp hf

end

/-! ### One statement -/

section

variable {U D : String} {n : Nat} {c : StreamOp} {w w' : SigState Unit × StreamLog} {s s' t : SigState Unit}

structure SameStreams (s s' : SigState Unit) : Prop where
  channels : ∀ i, (s'.memory i).channels = (s.memory i).channels
  next : s'.nextChannel = s.nextChannel
  receivers : s'.receivers = s.receivers

theorem SameStreams.refl (s : SigState Unit) : SameStreams s s := ⟨fun _ => rfl, rfl, rfl⟩

def Tail : SigStatement Unit → Prop
  | .map _ (.register ..) | .map _ (.subscribe _) | .map _ (.hangUp _) | .unregister .. => False
  | _ => True

theorem sameStreams_setMemory {m : Memory} (h : m.channels = (s.memory ()).channels) :
    SameStreams s (s.setMemory () m) := by
  refine ⟨fun i => ?_, rfl, rfl⟩
  show (update s.memory () m i).channels = (s.memory i).channels
  rw [update_self]
  exact h

theorem sameStreams_of_exec {q : SigStatement Unit} {input : Input (SigPick Unit)} {r : q.Answer}
    (hq : Tail q) (h : s.exec q input = some (r, s')) : SameStreams s s' := by
  cases q with
  | clock =>
    cases h
    exact .refl s
  | map i access =>
    cases access with
    | register _ _ | subscribe _ | hangUp _ => exact hq.elim
    | getCall _ | getActive _ | sendLocalExcept _ _ _ =>
      cases h
      exact ⟨fun _ => rfl, rfl, rfl⟩
    | insertCall _ _ | removeCall _ | insertActive _ _ | removeActive _ =>
      cases h
      exact sameStreams_setMemory rfl
    | sendLocal userId deviceId signal =>
      obtain ⟨outcome, pick⟩ := input
      cases pick with
      | channels order =>
        simp only [SigState.exec, MapAccess.effect] at h
        split at h
        · cases h
          exact ⟨fun _ => rfl, rfl, rfl⟩
        · cases h
      | _ => cases h
  | redis command =>
    cases fallible_case h with
    | failed => exact .refl s
    | effect he _ =>
      have hl := (frame_of_redis he).1
      exact ⟨fun i => by rw [hl.memory], hl.next, hl.receivers⟩
  | unregister i userId deviceId => exact hq.elim

theorem StreamInv.congr (h : StreamInv U D w) (hs : SameStreams w.1 w'.1) (hl : w'.2 = w.2) :
    StreamInv U D w' := by
  have hch : channels U w'.1 = channels U w.1 := by
    unfold channels
    rw [hs.channels]
  refine ⟨?_, ?_, ?_, ?_, ?_, ?_, ?_⟩
  · rw [hl, hs.next]
    exact h.below
  · rw [hl, hch]
    exact h.entry
  · rw [hl]
    exact h.quiet
  · rw [hl, hs.receivers]
    exact h.deaf
  · rw [hl]
    exact h.just
  · rw [hl, hs.next]
    exact h.mineBelow
  · rw [hl]
    exact h.unique

theorem rely_of_same (hs : SameStreams w.1 w'.1) (hl : w'.2 = w.2) : (newestLast U D).rely n c w w' := by
  refine ⟨hs.next.ge, fun ch hch _ => ?_, fun ch hch => ?_, ?_, ?_⟩
  · rw [hl] at hch
    exact hch
  · rw [hl]
    exact ⟨hch, fun h => ⟨h, rfl⟩⟩
  · rw [hl]
    exact id
  · rw [hl]
    exact id

theorem keeps_same (hinv : StreamInv U D w) (hs : SameStreams w.1 w'.1) (hl : w'.2 = w.2) :
    (newestLast U D).Keeps n c w w' := by
  refine ⟨hinv.congr hs hl, fun n' _ hf => ?_, fun n' c' _ _ => rely_of_same hs hl⟩
  show n' ∉ w'.2.mine.map Prod.fst ∧ n' ∉ w'.2.closing
  rw [hl]
  exact hf

structure Other (n ch : Nat) (w : SigState Unit × StreamLog) : Prop where
  other : n ∉ w.2.mine.map Prod.fst
  below : ch < w.1.nextChannel
  apart : w.2.newest ≠ some ch

/-- A stream of the device that has not begun to close, with its channel. -/
structure Mine (n ch : Nat) (w : SigState Unit × StreamLog) : Prop where
  mine : (n, ch) ∈ w.2.mine
  below : ch < w.1.nextChannel
  open_ : w.2.newest = some ch → w.2.leaving = false

def Leaving (U D : String) (c : StreamOp) (n : Nat) (w : SigState Unit × StreamLog) : Prop :=
  n ∉ w.2.mine.map Prod.fst ∧ c ≠ ⟨U, D⟩ ∨ n ∈ w.2.closing

theorem Other.stable {ch : Nat} (hw : Other n ch w) (hre : (newestLast U D).rely n c w w') : Other n ch w' :=
  ⟨hre.other hw.other, hw.below.trans_le hre.next,
    fun hn => hw.apart (hre.newest ch hn hw.below)⟩

theorem Mine.stable {ch : Nat} (hw : Mine n ch w) (hre : (newestLast U D).rely n c w w') : Mine n ch w' := by
  obtain ⟨hmi, ho⟩ := hre.mine ch hw.mine
  refine ⟨hmi, hw.below.trans_le hre.next, fun hn => ?_⟩
  obtain ⟨hn₀, heq⟩ := ho hn
  exact heq.trans (hw.open_ hn₀)

theorem Leaving.stable (hw : Leaving U D c n w) (hre : (newestLast U D).rely n c w w') :
    Leaving U D c n w' := by
  rcases hw with ⟨ho, hc⟩ | hcl
  · exact .inl ⟨hre.other ho, hc⟩
  · exact .inr (hre.closing hcl)

theorem judge_of_leaving (hinv : StreamInv U D w) (hw : Leaving U D c n w) :
    w.2.judge n w.1.receivers = w.2 := by
  refine if_neg fun hba => ?_
  obtain ⟨p, hp, rfl, ch, hch, -, hop⟩ := hba
  rcases hw with ⟨hot, -⟩ | hcl
  · exact hot (mem_map_of_mem hp)
  · -- It is closing, so the newest one has begun to close as well, and does not receive.
    have ho : w.2.leaving = true := by
      by_contra ho
      have hq := hinv.quiet (fun hno => by rw [hno] at hch; cases hch) (Bool.eq_false_iff.mpr ho)
      rw [hq] at hcl
      cases hcl
    exact hinv.deaf ch hch ho hop

theorem safe_tail {α : Type} {p : Sig Unit α} (hp : p.Asks Tail) (hw : Leaving U D c n w) :
    (newestLast U D).Safe (streamExec U D) n c p (fun _ _ => True) w := by
  refine Discipline.safe_of_keeps (Leaving U D c n) (fun _ _ => Leaving.stable) ?_ (fun _ _ _ => trivial) hp hw
  intro q input w x w' hq hinv hw _ he
  obtain ⟨hef, hl⟩ := noted_eq_some he
  have hju := judge_of_leaving hinv hw
  have hl : w'.2 = w.2 := by
    rw [hl]
    cases q with
    | map i access =>
      cases access with
      | register _ _ | subscribe _ | hangUp _ => exact hq.elim
      | removeCall callId =>
        cases x with
        | none => rfl
        | some state => exact hju
      | sendLocal userId device signal =>
        show (if isHangup signal then w.2.judge n w.1.receivers else w.2) = w.2
        rw [hju, ite_self]
      | _ => rfl
    | redis command =>
      cases command with
      | publish j userId device signal =>
        show (if isHangup signal then w.2.judge n w.1.receivers else w.2) = w.2
        rw [hju, ite_self]
      | _ => rfl
    | unregister _ _ _ => exact hq.elim
    | clock => rfl
  refine ⟨keeps_same hinv (sameStreams_of_exec hq hef) hl, ?_⟩
  unfold Leaving
  rw [hl]
  exact hw

theorem keeps_setOnline {userId deviceId : String} {input : Input (SigPick Unit)}
    {x : Option (RedisCommand.setOnline userId deviceId ()).Reply} (hinv : StreamInv U D w)
    (he : streamExec U D n (.redis (.setOnline userId deviceId ())) input w = some (x, w')) :
    (newestLast U D).Keeps n c w w' ∧ w'.1.nextChannel = w.1.nextChannel ∧ w'.2 = w.2 := by
  obtain ⟨hef, hl⟩ := noted_eq_some he
  have hs := sameStreams_of_exec (q := .redis (.setOnline userId deviceId ())) trivial hef
  exact ⟨keeps_same hinv hs hl, hs.next, hl⟩

end

/-! ### A stream -/

section

variable {U D : String} {n ch : Nat} {c : StreamOp} {w w' : SigState Unit × StreamLog}

theorem filter_other {list : List (String × Nat)} {deviceId : String} (hne : deviceId ≠ D) :
    (list.filter (·.1 ≠ deviceId)).filter (·.1 = D) = list.filter (·.1 = D) := by
  rw [filter_filter]
  refine filter_congr fun p _ => ?_
  by_cases hp : p.1 = D
  · simp [hp, Ne.symm hne]
  · simp [hp]

theorem filter_update {f : String → List (String × Nat)} {userId deviceId : String}
    (head : List (String × Nat))
    (hne : ¬ (userId = U ∧ deviceId = D)) (hh : ∀ p ∈ head, p.1 = deviceId) :
    (update f userId (head ++ (f userId).filter (·.1 ≠ deviceId)) U).filter (·.1 = D) =
      (f U).filter (·.1 = D) := by
  by_cases hu : userId = U
  · subst hu
    have hde : deviceId ≠ D := fun heq => hne ⟨rfl, heq⟩
    have hno : head.filter (·.1 = D) = [] := by
      refine filter_eq_nil_iff.mpr fun p hp => ?_
      rw [hh p hp]
      simpa using hde
    rw [update_self, filter_append, hno, nil_append, filter_other hde]
  · rw [update_of_ne (Ne.symm hu)]

section

variable {userId deviceId : String} {input : Input (SigPick Unit)}
  {x : (SigStatement.map () (.register userId deviceId)).Answer}

theorem keeps_register_mine (hinv : StreamInv U D w) (hcl : w.2.closing = [])
    (he : streamExec U D n (.map () (.register U D)) input w = some (x, w')) :
    (newestLast U D).Keeps n c w w' ∧ Mine n x w' := by
  obtain ⟨hef, hl⟩ := noted_eq_some he
  have hl : w'.2 = { w.2 with newest := some x, leaving := false, mine := (n, x) :: w.2.mine } :=
    hl.trans (if_pos ⟨rfl, rfl⟩)
  obtain ⟨s', g'⟩ := w'
  cases hl
  cases hef
  have hf : ∀ p ∈ w.2.mine, p.2 ≠ w.1.nextChannel := fun p hp => (hinv.mineBelow p hp).ne
  refine ⟨⟨⟨?_, ?_, ?_, nofun, hinv.just, ?_, ?_⟩, ?_, ?_⟩, ⟨mem_cons_self, Nat.lt_succ_self _, fun _ => rfl⟩⟩
  · rintro _ ⟨⟩
    exact Nat.lt_succ_self _
  · rintro _ ⟨⟩ -
    show (update (w.1.memory ()).channels U ((D, w.1.nextChannel) ::
      ((w.1.memory ()).channels U).filter (·.1 ≠ D)) U).filter (·.1 = D) = [(D, w.1.nextChannel)]
    rw [update_self, filter_cons_of_pos (by simp), filter_filter]
    refine congrArg _ (filter_eq_nil_iff.mpr fun p _ => ?_)
    by_cases hp : p.1 = D
    · simp [hp]
    · simp [hp]
  · intro _ _
    exact hcl
  · intro p hp
    rcases mem_cons.mp hp with rfl | hp
    · exact Nat.lt_succ_self _
    · exact Nat.lt_succ_of_lt (hinv.mineBelow p hp)
  · intro p hp p' hp' heq
    rcases mem_cons.mp hp with rfl | hp
    · rcases mem_cons.mp hp' with rfl | hp'
      · rfl
      · exact absurd heq.symm (hf p' hp')
    · rcases mem_cons.mp hp' with rfl | hp'
      · exact absurd heq (hf p hp)
      · exact hinv.unique p hp p' hp' heq
  · intro n' hn' hn
    refine ⟨fun hm => ?_, hn.2⟩
    rcases mem_cons.mp hm with heq | hm
    · exact hn'.ne' heq
    · exact hn.1 hm
  · intro n' c' hn' _
    refine ⟨Nat.le_succ _, ?_, fun ch hch => ⟨mem_cons_of_mem _ hch, ?_⟩, fun ho' hm => ?_, id⟩
    · rintro _ ⟨⟩ hlt
      exact absurd hlt (Nat.lt_irrefl _)
    · rintro ⟨⟩
      exact absurd rfl (hf _ hch)
    · rcases mem_cons.mp hm with heq | hm
      · exact hn' heq
      · exact ho' hm

theorem keeps_register_other (hinv : StreamInv U D w) (ho : n ∉ w.2.mine.map Prod.fst)
    (hne : ¬ (userId = U ∧ deviceId = D))
    (he : streamExec U D n (.map () (.register userId deviceId)) input w = some (x, w')) :
    (newestLast U D).Keeps n c w w' ∧ Other n x w' := by
  obtain ⟨hef, hl⟩ := noted_eq_some he
  have hl : w'.2 = w.2 := hl.trans (if_neg hne)
  obtain ⟨s', g'⟩ := w'
  cases hl
  cases hef
  have hcha : (channels U { w.1.setMemory () { w.1.memory () with
      channels := update (w.1.memory ()).channels userId ((deviceId, w.1.nextChannel) ::
        ((w.1.memory ()).channels userId).filter (·.1 ≠ deviceId)) } with
      nextChannel := w.1.nextChannel + 1 }).filter (·.1 = D) = (channels U w.1).filter (·.1 = D) :=
    filter_update [(deviceId, w.1.nextChannel)] hne (by rintro _ (_ | ⟨_, ⟨⟩⟩); rfl)
  refine ⟨⟨⟨fun ch hch => Nat.lt_succ_of_lt (hinv.below ch hch), ?_, hinv.quiet, hinv.deaf, hinv.just,
    fun p hp => Nat.lt_succ_of_lt (hinv.mineBelow p hp), hinv.unique⟩, fun _ _ hf => hf, ?_⟩,
    ⟨ho, Nat.lt_succ_self _, fun hn => Nat.lt_irrefl _ (hinv.below _ hn)⟩⟩
  · intro ch hch hov
    exact hcha.trans (hinv.entry ch hch hov)
  · intro n' c' _ _
    exact ⟨Nat.le_succ _, fun _ h _ => h, fun _ h => ⟨h, fun h => ⟨h, rfl⟩⟩, id, id⟩

end

variable {input : Input (SigPick Unit)}

theorem keeps_subscribe {x : Unit} (hinv : StreamInv U D w)
    (hop : w.2.newest = some ch → w.2.leaving = false)
    (he : streamExec U D n (.map () (.subscribe ch)) input w = some (x, w')) :
    (newestLast U D).Keeps n c w w' ∧ w'.1.nextChannel = w.1.nextChannel ∧ w'.2 = w.2 := by
  obtain ⟨hef, hl⟩ := noted_eq_some he
  obtain ⟨s', g'⟩ := w'
  cases hl
  cases hef
  refine ⟨⟨⟨hinv.below, hinv.entry, hinv.quiet, ?_, hinv.just, hinv.mineBelow, hinv.unique⟩,
    fun _ _ hf => hf, fun n' c' _ _ => ?_⟩, rfl, rfl⟩
  · intro ch' hch' ho hm
    rcases mem_cons.mp hm with rfl | hm
    · exact Bool.false_ne_true ((hop hch').symm.trans ho)
    · exact hinv.deaf ch' hch' ho hm
  · exact ⟨le_rfl, fun _ h _ => h, fun _ h => ⟨h, fun h => ⟨h, rfl⟩⟩, id, id⟩

theorem keeps_hangUp_mine {x : Unit} (hinv : StreamInv U D w)
    (hmi : (n, ch) ∈ w.2.mine) (hl : w.2.newest = some ch ∨ w.2.leaving = true)
    (he : streamExec U D n (.map () (.hangUp ch)) input w = some (x, w')) :
    (newestLast U D).Keeps n c w w' ∧ n ∈ w'.2.closing := by
  obtain ⟨hef, hlo⟩ := noted_eq_some he
  have ho : (w.2.leaving || decide (w.2.newest = some ch)) = true := by
    rcases hl with hn | ho
    · rw [decide_eq_true hn, Bool.or_true]
    · rw [ho, Bool.true_or]
  have hlo : w'.2 = { w.2 with leaving := true, closing := n :: w.2.closing } := by
    rw [hlo]
    simp only [noteStream]
    rw [ho, if_pos (mem_map_of_mem hmi)]
  obtain ⟨s', g'⟩ := w'
  cases hlo
  cases hef
  refine ⟨⟨⟨hinv.below, nofun, nofun, ?_, hinv.just, hinv.mineBelow, hinv.unique⟩, ?_, ?_⟩, mem_cons_self⟩
  · intro ch' hch' _ hm
    obtain ⟨hm, hne⟩ := mem_filter.mp hm
    rcases hl with hn | ho
    · cases hn.symm.trans hch'
      simp at hne
    · exact hinv.deaf ch' hch' ho hm
  · intro n' hn' hf
    refine ⟨hf.1, fun hm => ?_⟩
    rcases mem_cons.mp hm with heq | hm
    · exact hn'.ne' heq
    · exact hf.2 hm
  · intro n' c' hn' _
    refine ⟨le_rfl, fun _ h _ => h, fun ch' hch' => ⟨hch', fun hn => ⟨hn, ?_⟩⟩, id,
      fun hm => mem_cons_of_mem _ hm⟩
    -- Nobody else has the channel of the newest stream.
    rcases hl with hne' | ho
    · cases hn.symm.trans hne'
      exact absurd (hinv.unique _ hch' _ hmi rfl) hn'
    · exact ho.symm

theorem keeps_hangUp_other {x : Unit} (hinv : StreamInv U D w)
    (hw : Other n ch w) (he : streamExec U D n (.map () (.hangUp ch)) input w = some (x, w')) :
    (newestLast U D).Keeps n c w w' ∧ w'.2 = w.2 := by
  obtain ⟨hef, hl⟩ := noted_eq_some he
  have hl : w'.2 = w.2 := by
    rw [hl]
    simp only [noteStream]
    rw [if_neg hw.other, decide_eq_false hw.apart, Bool.or_false]
  obtain ⟨s', g'⟩ := w'
  cases hl
  cases hef
  refine ⟨⟨⟨hinv.below, hinv.entry, hinv.quiet, ?_, hinv.just, hinv.mineBelow, hinv.unique⟩,
    fun _ _ hf => hf, fun n' c' _ _ => ?_⟩, rfl⟩
  · intro ch' hch' ho hm
    exact hinv.deaf ch' hch' ho (mem_filter.mp hm).1
  · exact ⟨le_rfl, fun _ h _ => h, fun _ h => ⟨h, fun h => ⟨h, rfl⟩⟩, id, id⟩

theorem unregister_case (s : SigState Unit) (userId deviceId : String) (failed : Bool) :
    s.unregister () userId deviceId failed = s ∨ ∃ online, s.unregister () userId deviceId failed =
      { s.setMemory () { s.memory () with
          channels := update (s.memory ()).channels userId
            (((s.memory ()).channels userId).filter (·.1 ≠ deviceId)) } with
        online := online } := by
  simp only [SigState.unregister]
  by_cases hni : (s.memory ()).channels userId = []
  · exact .inl (if_pos hni)
  · rw [if_neg hni]
    cases failed with
    | true | false => exact .inr ⟨_, rfl⟩

theorem keeps_unregister {x : Unit} (hinv : StreamInv U D w) (hw : Leaving U D c n w)
    (he : streamExec U D n (.unregister () c.userId c.deviceId) input w = some (x, w')) :
    (newestLast U D).Keeps n c w w' ∧ Leaving U D c n w' := by
  obtain ⟨hef, hlo⟩ := noted_eq_some he
  have hs : w.1.unregister () c.userId c.deviceId (input.outcome = .failed) = w'.1 :=
    congrArg Prod.snd (Option.some.inj hef)
  have hlo : w'.2 = w.2 := hlo
  have hl : Leaving U D c n w' := by
    unfold Leaving
    rw [hlo]
    exact hw
  refine ⟨?_, hl⟩
  rcases unregister_case w.1 c.userId c.deviceId (input.outcome = .failed) with hsa | ⟨online, hg⟩
  · rw [hs] at hsa
    exact keeps_same hinv (hsa ▸ SameStreams.refl _) hlo
  · obtain ⟨s', g'⟩ := w'
    cases hlo
    cases hg.symm.trans hs
    refine ⟨⟨hinv.below, ?_, hinv.quiet, hinv.deaf, hinv.just, hinv.mineBelow, hinv.unique⟩,
      fun _ _ hf => hf, fun n' c' _ _ => ?_⟩
    · intro ch' hch' ho
      rcases hw with ⟨-, hc⟩ | hcl
      · exact (filter_update [] (fun heq => hc (congrArg₂ StreamOp.mk heq.1 heq.2)) nofun).trans
          (hinv.entry ch' hch' ho)
      · -- The newest stream has begun to close as well.
        have hq := hinv.quiet (fun hno => nomatch hno.symm.trans hch') ho
        rw [hq] at hcl
        cases hcl
    · exact ⟨le_rfl, fun _ h _ => h, fun _ h => ⟨h, fun h => ⟨h, rfl⟩⟩, id, id⟩

end

/-! ### What follows the closing -/

section

variable {callId userId deviceId : String}

theorem tail_removeCall : (removeCall () callId).Asks Tail := by
  refine asks_map trivial fun state => ?_
  cases state with
  | none => trivial
  | some state =>
    refine asks_map trivial fun _ => ?_
    exact asks_pipe_then trivial (asks_pipe_then trivial (asks_pipe_then trivial (asks_pipe trivial)))

theorem tail_loadCallState : (loadCallState () callId).Asks Tail := by
  refine asks_map trivial fun cached => ?_
  cases cached with
  | some state => trivial
  | none =>
    refine asks_redis trivial fun hash => ?_
    cases hash with
    | none => trivial
    | some hash =>
      show (insertLoaded () callId hash).Asks Tail
      unfold insertLoaded
      split
      · refine Program.asks_bind (asks_orNow (asks_unixSeconds trivial)) fun createdAt => ?_
        refine Program.asks_bind (asks_orNow (asks_unixMillis trivial)) fun offeredAtMs => ?_
        exact asks_map trivial fun _ => trivial
      · trivial

theorem tail_getUserCall : (getUserCall () userId).Asks Tail := by
  refine asks_map trivial fun active => ?_
  cases active with
  | some callId =>
    refine asks_redis trivial fun found => ?_
    show (if found.getD false then _ else _ : Sig Unit (Option String)).Asks Tail
    split
    · trivial
    · exact Program.asks_bind tail_removeCall fun _ => trivial
  | none =>
    refine asks_redis trivial fun pointer => ?_
    rcases pointer with - | - | callId
    · trivial
    · trivial
    · refine asks_redis trivial fun found => ?_
      show (if found.getD false then _ else _ : Sig Unit (Option String)).Asks Tail
      split
      · exact asks_map trivial fun _ => trivial
      · exact Program.asks_bind (asks_pipe trivial) fun _ => trivial

theorem tail_callEndedByDisconnect : (callEndedByDisconnect () userId deviceId).Asks Tail := by
  refine Program.asks_bind tail_getUserCall fun call => ?_
  cases call with
  | none => trivial
  | some callId =>
    refine Program.asks_bind tail_loadCallState fun loaded => ?_
    cases loaded with
    | none => trivial
    | some state =>
      show (if _ then _ else if _ then _ else _ : Sig Unit (Option CallState)).Asks Tail
      split
      · trivial
      · split
        · exact Program.asks_bind (asks_redis trivial fun _ => trivial) fun _ => trivial
        · trivial

theorem Sends.tail {signal : ForwardedSignal} (q : SigStatement Unit) (h : Sends signal q) : Tail q := by
  cases q with
  | clock | redis => trivial
  | map i access => cases access <;> first | exact h.elim | trivial
  | unregister i userId deviceId => exact h.elim

theorem tail_ended {ended : Option CallState} :
    (match ended with
      | none => pure ()
      | some state => do
        hangUpBoth () state .connectionFailed
        removeCall () state.callId : Sig Unit Unit).Asks Tail := by
  cases ended with
  | none => trivial
  | some state =>
    refine Program.asks_bind ?_ fun _ => tail_removeCall
    refine Program.asks_bind (sends_toUser.mono Sends.tail) fun _ => ?_
    exact Program.asks_bind (sends_toUser.mono Sends.tail) fun _ => trivial

end

/-! ### Every run -/

section

variable {U D : String} {n ch : Nat} {c : StreamOp} {w w' : SigState Unit × StreamLog}

theorem safe_closeStream (hw : Leaving U D c n w) :
    (newestLast U D).Safe (streamExec U D) n c (closeStream () c.userId c.deviceId) (fun _ _ => True) w := by
  intro w₁ input x w' hinv hre _ he
  obtain ⟨hke, hw'⟩ := keeps_unregister hinv (hw.stable hre) he
  have hta : (callEndedByDisconnect () c.userId c.deviceId >>= fun ended => match ended with
      | none => pure ()
      | some state => do
        hangUpBoth () state .connectionFailed
        removeCall () state.callId : Sig Unit Unit).Asks Tail :=
    Program.asks_bind tail_callEndedByDisconnect fun _ => tail_ended
  exact ⟨hke, safe_tail hta hw'⟩

theorem safe_mine (hc : c = ⟨U, D⟩) (hw : Mine n ch w) :
    (newestLast U D).Safe (streamExec U D) n c (do
      touchOnline () c.userId c.deviceId
      map () (.subscribe ch)
      map () (.hangUp ch)
      closeStream () c.userId c.deviceId) (fun _ _ => True) w := by
  refine safe_pipe fun w₁ input x w' hinv hre _ he => ?_
  have hw₁ := hw.stable hre
  obtain ⟨hke, hn, hl⟩ := keeps_setOnline (c := c) hinv he
  have hw : Mine n ch w' := ⟨hl ▸ hw₁.mine, hn ▸ hw₁.below, hl ▸ hw₁.open_⟩
  refine ⟨hke, safe_map fun w₁ input x w' hinv hre _ he => ?_⟩
  have hw₁ := hw.stable hre
  obtain ⟨hke, hn, hl⟩ := keeps_subscribe (c := c) hinv hw₁.open_ he
  have hw : Mine n ch w' := ⟨hl ▸ hw₁.mine, hn ▸ hw₁.below, hl ▸ hw₁.open_⟩
  refine ⟨hke, safe_map fun w₁ input x w' hinv hre hca he => ?_⟩
  obtain ⟨hke, hcl⟩ := keeps_hangUp_mine (c := c) hinv (hw.stable hre).mine (hca hc) he
  exact ⟨hke, safe_closeStream (.inr hcl)⟩

theorem safe_other (hc : c ≠ ⟨U, D⟩) (hw : Other n ch w) :
    (newestLast U D).Safe (streamExec U D) n c (do
      touchOnline () c.userId c.deviceId
      map () (.subscribe ch)
      map () (.hangUp ch)
      closeStream () c.userId c.deviceId) (fun _ _ => True) w := by
  refine safe_pipe fun w₁ input x w' hinv hre _ he => ?_
  have hw₁ := hw.stable hre
  obtain ⟨hke, hn, hl⟩ := keeps_setOnline (c := c) hinv he
  have hw : Other n ch w' := ⟨hl ▸ hw₁.other, hn ▸ hw₁.below, hl ▸ hw₁.apart⟩
  refine ⟨hke, safe_map fun w₁ input x w' hinv hre _ he => ?_⟩
  have hw₁ := hw.stable hre
  obtain ⟨hke, hn, hl⟩ :=
    keeps_subscribe (c := c) hinv (fun hne => absurd hne hw₁.apart) he
  have hw : Other n ch w' := ⟨hl ▸ hw₁.other, hn ▸ hw₁.below, hl ▸ hw₁.apart⟩
  refine ⟨hke, safe_map fun w₁ input x w' hinv hre _ he => ?_⟩
  have hw₁ := hw.stable hre
  obtain ⟨hke, hl⟩ := keeps_hangUp_other (c := c) hinv hw₁ he
  exact ⟨hke, safe_closeStream (.inl ⟨hl ▸ hw₁.other, hc⟩)⟩

theorem safe_signalStream (hf : (newestLast U D).fresh n w) :
    (newestLast U D).Safe (streamExec U D) n c (signalStream () c.userId c.deviceId) (fun _ _ => True) w := by
  refine safe_map fun w₁ input x w' hinv hre hca he => ?_
  by_cases hc : c = ⟨U, D⟩
  · cases hc
    obtain ⟨hke, hw⟩ := keeps_register_mine hinv (hca rfl rfl) he
    exact ⟨hke, safe_mine rfl hw⟩
  · have hne : ¬ (c.userId = U ∧ c.deviceId = D) := fun heq => hc (congrArg₂ StreamOp.mk heq.1 heq.2)
    obtain ⟨hke, hw⟩ := keeps_register_other hinv (hre.other hf.1) hne he
    exact ⟨hke, safe_other hc hw⟩

theorem ends_stream {a : Unit} : (newestLast U D).Ends noteStreamEnd n c a w := by
  intro hinv
  refine ⟨⟨hinv.below, hinv.entry, ?_, hinv.deaf, hinv.just, hinv.mineBelow, hinv.unique⟩, ?_, ?_⟩
  · intro hn ho
    show w.2.closing.filter (· ≠ n) = []
    rw [hinv.quiet hn ho]
    rfl
  · intro n' _ hf
    exact ⟨hf.1, fun hm => hf.2 (mem_filter.mp hm).1⟩
  · intro n' c' hn' _
    exact ⟨le_rfl, fun _ h _ => h, fun _ h => ⟨h, fun h => ⟨h, rfl⟩⟩, id,
      fun hm => mem_filter.mpr ⟨hm, decide_eq_true hn'⟩⟩

theorem elsewhere_stream : (newestLast U D).Bears fun t w => (elsewhere t w.1, w.2) := by
  intro t w hinv
  have hs : SameStreams w.1 (elsewhere t w.1) := ⟨fun _ => rfl, rfl, rfl⟩
  exact ⟨StreamInv.congr hinv hs rfl, fun _ hf => hf, fun _ _ => rely_of_same hs rfl⟩

/-- In every run in which a stream of the device opens only while no other one of it is closing, and
begins to close only if it is the newest or the newest has begun to close: a signal reaches the
newest stream whenever that is open, and no older one has ended a call while it was. -/
theorem newest_stream_is_reached {s : SigState Unit} {as : List StreamAction} {pool : StreamPool}
    (hcareful : Along (streamStep U D) (newestLast U D).Careful (.init (s, .empty)) as)
    (hrun : run (streamStep U D) (.init (s, .empty)) as = some pool) : pool.store.2.ended = false ∧
      ∀ ch ∈ pool.store.2.newest, ch ∈ pool.store.1.receivers →
        ∀ signal order, order.Perm (channels U pool.store.1) →
          (ch, signal) ∈ fanOut pool.store.1.receivers (some D) signal order 0 := by
  have hbody : (newestLast U D).SafeBodies (streamExec U D) (fun c _ => signalStream () c.userId c.deviceId)
      noteStreamEnd :=
    fun n c w _ hfresh _ => (safe_signalStream hfresh).mono fun _ _ _ => ends_stream
  have hinit : (newestLast U D).inv (s, .empty) :=
    ⟨nofun, nofun, fun hnone => absurd rfl hnone, nofun, rfl, nofun, nofun⟩
  have hfresh : ∀ n, (newestLast U D).fresh n (s, .empty) := fun n => ⟨not_mem_nil, not_mem_nil⟩
  have hinv := (newestLast U D).run_invariant hbody elsewhere_stream hinit hfresh hcareful hrun
  refine ⟨hinv.just, fun ch hch hopen signal order hperm => ?_⟩
  have hover : pool.store.2.leaving = false :=
    Bool.eq_false_iff.mpr fun hover => hinv.deaf ch hch hover hopen
  exact reached hopen (hinv.entry ch hch hover) hperm

end

/-! ### An older stream that closes -/

section

attribute [reducible] newestLast

instance decidableStreamCare (U D : String) (c : StreamOp) (q : SigStatement Unit)
    (input : Input (SigPick Unit)) (w : SigState Unit × StreamLog) :
    Decidable ((newestLast U D).care c q input w) :=
  match q with
  | .map i access => by
    apply @MapAccess.casesOn (fun m => Decidable ((newestLast U D).care c (.map i m) input w)) access <;>
      intros <;> infer_instance
  | .clock | .redis _ | .unregister .. => isTrue trivial

def goesOn (i : Nat) (picks : List (SigPick Unit)) : List StreamAction :=
  picks.map fun pick => .step i ⟨.ok, pick⟩

def opens (i : Nat) : List StreamAction :=
  .start ⟨"alice", "phone"⟩ :: goesOn i (replicate 3 .none)

/-- The phone opens a stream, closes it, opens another one, and a third one while that is open. -/
theorem newest_stream_is_reached_demo : ∃ pool : StreamPool,
    run (streamStep "alice" "phone") (.init (.start 0, .empty))
      (opens 0 ++ goesOn 0 (replicate 4 .none) ++ opens 0 ++ opens 1) = some pool ∧
      pool.running.length = 2 ∧ pool.store.2.newest = some 2 ∧ pool.store.2.ended = false ∧
      ∀ signal, (2, signal) ∈ fanOut pool.store.1.receivers (some "phone") signal
        (channels "alice" pool.store.1) 0 := by
  obtain ⟨pool, hrun, hboth, hnewest, hopen⟩ := reaches (streamStep "alice" "phone")
    (.init (.start 0, .empty)) (opens 0 ++ goesOn 0 (replicate 4 .none) ++ opens 0 ++ opens 1)
    (fun pool => pool.running.length = 2 ∧ pool.store.2.newest = some 2 ∧ 2 ∈ pool.store.1.receivers)
    (by decide +kernel)
  obtain ⟨hended, hreached⟩ := newest_stream_is_reached (by decide +kernel) hrun
  exact ⟨pool, hrun, hboth, hnewest, hended, fun signal => hreached 2 hnewest hopen signal _ (.refl _)⟩

def inCall : SigState Unit :=
  { SigState.start 0 with
    memory := fun _ => { Memory.empty with
      calls := update (fun _ => none) "c1"
        (some ⟨"c1", "alice", "bob", "phone", none, 0, 0, none, none, 0, 0⟩)
      activeCalls := update (update (fun _ => none) "alice" (some "c1")) "bob" (some "c1") }
    hashes := Keyspace.empty.set 0 (callKey "c1") .empty (some 300) }

/-- The phone opens a stream and then a second one; the first one closes. The second one is open,
but the phone has no channel any more, and the call is gone. -/
theorem older_stream_cuts_off_the_newest : ∃ pool : StreamPool,
    run (streamStep "alice" "phone") (.init (inCall, .empty))
      (opens 0 ++ opens 1 ++ goesOn 0 (replicate 5 .none ++
        [.channels [], .none, .channels [], .devices []] ++ replicate 6 .none)) = some pool ∧
      pool.running.length = 1 ∧ pool.store.2.newest = some 1 ∧ 1 ∈ pool.store.1.receivers ∧
      channels "alice" pool.store.1 = [] ∧ pool.store.2.ended = true ∧ (pool.store.1.memory ()).calls "c1" = none ∧
      pool.store.1.hashes.get pool.store.1.now (callKey "c1") = none :=
  reaches _ _ _ _ (by decide +kernel)

end

end ConstructServer.Signaling.Streams
