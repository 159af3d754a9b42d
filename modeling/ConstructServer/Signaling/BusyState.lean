import ConstructServer.Signaling.Service

/-!
# The pointers of the users

A new call writes the pointers of both users whatever was there, and a removal takes both away
whatever they name; only the callee is checked for another call, before anything is written. If the
operations on the registry come one after the other, a new call has an id of its own and a caller
who is not in a call, and the writes to the pointers take effect, then the pointers follow the calls
wherever no operation is under way and no call is older than its pointers: in the map and in Redis a
user's pointer names a call that the user is in, every party of a call has one, and a removal takes
away only those to its own call.
-/

namespace ConstructServer.Signaling.Busy

open Redis Calls Machine Keyspace List Option Function

/-! ### Operations -/

inductive BusyOp
  | initiate (hasDatabase : Bool) (req : InitiateCall)
  | remove (callId : String)

def busyBody : BusyOp → Sig Unit Unit
  | .initiate hasDatabase req => do
    let _ ← initiateCall () hasDatabase req
  | .remove callId => removeCall () callId

structure BusyLog where
  working : List Nat
  removing : List (Nat × String)
  stolen : Bool

def BusyLog.empty : BusyLog := ⟨[], [], false⟩

def BusyLog.work (n : Nat) (g : BusyLog) : BusyLog := { g with working := n :: g.working.filter (· ≠ n) }

def BusyLog.target (n : Nat) (g : BusyLog) : Option String := (g.removing.find? (·.1 = n)).map Prod.snd

def BusyLog.take (n : Nat) (pointer : Option String) (g : BusyLog) : BusyLog :=
  if ∃ callId ∈ g.target n, ∃ named ∈ pointer, named ≠ callId then { g with stolen := true } else g

def noteBusy (n : Nat) (q : SigStatement Unit) (x : q.Answer) (s : SigState Unit) (g : BusyLog) : BusyLog :=
  match q, x with
  | .map _ (.removeCall callId), some _ => { g.work n with removing := (n, callId) :: g.removing }
  | .map i (.removeActive userIds), _ =>
    userIds.foldl (fun g userId => g.take n ((s.memory i).activeCalls userId)) (g.work n)
  | .redis (.delPointer userId), _ => (g.work n).take n (s.pointers.get s.now (activeCallKey userId))
  | _, _ => g.work n

def noteBusyEnd (n : Nat) (_ : BusyOp) (_ : Unit) (w : SigState Unit × BusyLog) : SigState Unit × BusyLog :=
  (w.1, { w.2 with
    working := w.2.working.filter (· ≠ n)
    removing := w.2.removing.filter (·.1 ≠ n) })

def tickBusy (ms : Nat) (w : SigState Unit × BusyLog) : SigState Unit × BusyLog := (w.1.tick ms, w.2)

def busyExec : Nat → (q : SigStatement Unit) → Input (SigPick Unit) → SigState Unit × BusyLog →
    Option (q.Answer × (SigState Unit × BusyLog)) :=
  noted SigState.exec noteBusy

abbrev BusyPool : Type := Pool (SigStatement Unit) SigStatement.Answer Unit BusyOp (SigState Unit × BusyLog)

abbrev BusyAction : Type := Action (Input (SigPick Unit)) BusyOp Nat

def busyStep (pool : BusyPool) (a : BusyAction) : Option BusyPool :=
  pool.step busyExec (fun call _ => busyBody call) noteBusyEnd tickBusy a

/-! ### Calls and pointers -/

def calls (s : SigState Unit) : String → Option CallState := (s.memory ()).calls

def active (s : SigState Unit) : String → Option String := (s.memory ()).activeCalls

def Has (state : CallState) (userId : String) : Prop :=
  userId ∈ [state.callerUserId, state.calleeUserId]

section

variable (calls : String → Option CallState) (active : String → Option String) (pointers : Keyspace String)

/-- The calls, the pointers of the map and those of Redis agree; those of Redis only for the users
who are not skipped. -/
structure RestOf (skip : List String) : Prop where
  pointer : ∀ userId callId, active userId = some callId → ∃ state ∈ calls callId, Has state userId
  party : ∀ callId, ∀ state ∈ calls callId, ∀ userId, Has state userId → active userId = some callId
  redis : ∀ userId, userId ∉ skip →
    (pointers (activeCallKey userId)).map Cell.value = active userId
  fresh : ∀ callId, ∀ state ∈ calls callId, ∀ userId, Has state userId → userId ∉ skip →
    ∀ cell ∈ pointers (activeCallKey userId), ∀ d ∈ cell.deadline, state.createdAt * 1000 + 300 * 1000 ≤ d

end

def Rest (skip : List String) (s : SigState Unit) : Prop := RestOf (calls s) (active s) s.pointers skip

structure SameBusy (s s' : SigState Unit) : Prop where
  calls : calls s' = calls s
  active : active s' = active s
  pointers : s'.pointers = s.pointers

/-- An operation begins when no other one is under way, a new call has an id of its own and a caller
who is not in a call, and the writes to the pointers of Redis take effect. -/
def oneByOne : Discipline (SigStatement Unit) (Input (SigPick Unit)) (SigState Unit × BusyLog) BusyOp where
  inv w := (w.2.working = [] → Rest [] w.1) ∧ w.2.stolen = false
  fresh n w := n ∉ w.2.removing.map Prod.fst
  rely _ _ w w' := SameBusy w.1 w'.1 ∧ w.1.now ≤ w'.1.now ∧ w'.2 = w.2
  begins c w := w.2.working = [] ∧ match c with
    | .initiate _ req => calls w.1 req.callId = none ∧ active w.1 req.callerId = none
    | .remove _ => True
  compat _ _ := False
  care _ q input _ := match q with
    | .redis (.setPointer ..) | .redis (.delPointer _) => input.outcome ≠ .failed
    | _ => True
  refl _ _ _ := ⟨⟨rfl, rfl, rfl⟩, le_rfl, rfl⟩
  trans h h' := ⟨⟨h'.1.calls.trans h.1.calls, h'.1.active.trans h.1.active,
    h'.1.pointers.trans h.1.pointers⟩, h.2.1.trans h'.2.1, h'.2.2.trans h.2.2⟩

/-! ### What a call and its removal do to the pointers -/

section

variable {calls : String → Option CallState} {active : String → Option String} {pointers : Keyspace String}
  {skip : List String} {callId userId : String} {state : CallState} {now : Nat}

theorem activeCallKey_injective {u u' : String} (h : activeCallKey u = activeCallKey u') : u = u' :=
  (String.append_right_inj _).mp ((String.append_left_inj _).mp h)

theorem RestOf.replace {call : Option CallState} (h : RestOf calls active pointers [])
    (hst : ∀ state' ∈ call, state' = state)
    (hno : ∀ u id, active u = some id → (id = callId ↔ u ∈ [state.callerUserId, state.calleeUserId])) :
    RestOf (update calls callId call)
      (fun u => if u ∈ [state.callerUserId, state.calleeUserId] then call.map fun _ => callId else active u)
      pointers [state.callerUserId, state.calleeUserId] := by
  refine ⟨fun u id hid => ?_, fun id state' hs' u hu => ?_, fun u hu => ?_, fun id state' hs' u hu hou => ?_⟩
  · by_cases hm : u ∈ [state.callerUserId, state.calleeUserId]
    · rw [if_pos hm] at hid
      obtain ⟨state', hs', rfl⟩ := map_eq_some_iff.mp hid
      obtain rfl := hst state' hs'
      exact ⟨state', (update_self _ _ _).trans hs', hm⟩
    · rw [if_neg hm] at hid
      obtain ⟨state', hs', hu⟩ := h.pointer u id hid
      refine ⟨state', ?_, hu⟩
      rw [update_of_ne fun heq => hm ((hno u id hid).mp heq)]
      exact hs'
  · by_cases hid : id = callId
    · subst hid
      rw [update_self] at hs'
      obtain rfl := hst state' hs'
      exact (if_pos hu).trans (hs' ▸ rfl)
    · rw [update_of_ne hid] at hs'
      have hpo := h.party id state' hs' u hu
      rw [if_neg fun hm => hid ((hno u id hpo).mpr hm)]
      exact hpo
  · rw [if_neg hu]
    exact h.redis u not_mem_nil
  · by_cases hid : id = callId
    · subst hid
      rw [update_self] at hs'
      obtain rfl := hst state' hs'
      exact absurd hu hou
    · rw [update_of_ne hid] at hs'
      exact h.fresh id state' hs' u hu not_mem_nil

theorem RestOf.insert (h : RestOf calls active pointers []) (hn : calls callId = none)
    (hf : ∀ userId, Has state userId → active userId = none) : RestOf (update calls callId (some state))
      (fun u => if u ∈ [state.callerUserId, state.calleeUserId] then some callId else active u) pointers
      [state.callerUserId, state.calleeUserId] := by
  refine h.replace (fun state' hs' => (some.inj hs').symm) fun u id ha => ⟨fun hid => ?_, fun hu => ?_⟩
  · obtain ⟨state', hs', -⟩ := h.pointer u id ha
    cases hn.symm.trans (hid ▸ hs')
  · cases (hf u hu).symm.trans ha

theorem RestOf.remove (h : RestOf calls active pointers []) (hca : calls callId = some state) :
    RestOf (update calls callId none)
      (fun u => if u ∈ [state.callerUserId, state.calleeUserId] then none else active u) pointers
      [state.callerUserId, state.calleeUserId] := by
  refine h.replace (fun _ hs' => absurd hs' (not_mem_none _)) fun u id ha => ⟨fun hid => ?_, fun hu => ?_⟩
  · obtain ⟨state', hs', hu⟩ := h.pointer u id ha
    cases hca.symm.trans (hid ▸ hs')
    exact hu
  · exact some.inj (ha.symm.trans (h.party callId state hca u hu))

theorem RestOf.setPointer (h : RestOf calls active pointers (userId :: skip))
    (ha : active userId = some callId)
    (hst : ∀ state ∈ calls callId, state.createdAt * 1000 ≤ now) :
    RestOf calls active (pointers.set now (activeCallKey userId) callId (some 300)) skip := by
  refine ⟨h.pointer, h.party, fun u hu => ?_, fun id state' hs' u hh hu cell hce d hd => ?_⟩
  · by_cases heq : u = userId
    · rw [heq, set_apply_self, ha]
      rfl
    · rw [set_apply_of_ne fun hk => heq (activeCallKey_injective hk)]
      exact h.redis u (not_mem_cons_of_ne_of_not_mem heq hu)
  · by_cases heq : u = userId
    · subst heq
      have hd : now + 300 * 1000 = d := some.inj ((deadline_of_set hce).symm.trans hd)
      have hid : id = callId := some.inj ((h.party id state' hs' u hh).symm.trans ha)
      rw [← hd]
      exact Nat.add_le_add_right (hst state' (hid ▸ hs')) _
    · rw [set_apply_of_ne fun hk => heq (activeCallKey_injective hk)] at hce
      exact h.fresh id state' hs' u hh (not_mem_cons_of_ne_of_not_mem heq hu) cell hce d hd

theorem RestOf.delPointer (h : RestOf calls active pointers (userId :: skip)) (ha : active userId = none) :
    RestOf calls active (pointers.del (activeCallKey userId)) skip := by
  refine ⟨h.pointer, h.party, fun u hu => ?_, fun id state' hs' u hh hu cell hce d hd => ?_⟩
  · by_cases heq : u = userId
    · rw [heq, ha, Keyspace.del, update_self]
      rfl
    · rw [del_apply_of_ne fun hk => heq (activeCallKey_injective hk)]
      exact h.redis u (not_mem_cons_of_ne_of_not_mem heq hu)
  · by_cases heq : u = userId
    · subst heq
      cases ha.symm.trans (h.party id state' hs' u hh)
    · rw [del_apply_of_ne fun hk => heq (activeCallKey_injective hk)] at hce
      exact h.fresh id state' hs' u hh (not_mem_cons_of_ne_of_not_mem heq hu) cell hce d hd

end

/-! ### One statement -/

section

variable {n : Nat} {c : BusyOp} {w w' : SigState Unit × BusyLog} {s s' s'' : SigState Unit}
  {skip : List String}

theorem SameBusy.refl (s : SigState Unit) : SameBusy s s := ⟨rfl, rfl, rfl⟩

theorem Rest.congr (h : Rest skip s) (hs : SameBusy s s') : Rest skip s' := by
  unfold Rest
  rw [hs.calls, hs.active, hs.pointers]
  exact h

def Aside : SigStatement Unit → Prop
  | .map _ (.insertCall ..) | .map _ (.removeCall _) | .map _ (.insertActive ..) | .map _ (.removeActive _)
  | .redis (.setPointer ..) | .redis (.delPointer _) => False
  | _ => True

theorem sameBusy_setMemory {m : Memory} (hca : m.calls = (s.memory ()).calls)
    (ha : m.activeCalls = (s.memory ()).activeCalls) : SameBusy s (s.setMemory () m) := by
  refine ⟨?_, ?_, rfl⟩
  · exact calls_setMemory_self.trans hca
  · show (update s.memory () m ()).activeCalls = (s.memory ()).activeCalls
    rw [update_self]
    exact ha

theorem sameBusy_of_exec {q : SigStatement Unit} {input : Input (SigPick Unit)} {r : q.Answer} (hq : Aside q)
    (h : s.exec q input = some (r, s')) : SameBusy s s' := by
  cases q with
  | clock =>
    cases h
    exact .refl s
  | map i access =>
    cases access with
    | insertCall _ _ | removeCall _ | insertActive _ _ | removeActive _ => exact hq.elim
    | getCall _ | getActive _ | subscribe _ | hangUp _ | sendLocalExcept _ _ _ =>
      cases h
      exact ⟨rfl, rfl, rfl⟩
    | register userId deviceId =>
      cases h
      obtain ⟨hca, ha, -⟩ := sameBusy_setMemory (s := s) (m := { s.memory () with
        channels := update (s.memory ()).channels userId
          ((deviceId, s.nextChannel) :: ((s.memory ()).channels userId).filter (·.1 ≠ deviceId)) }) rfl rfl
      exact ⟨hca, ha, rfl⟩
    | sendLocal userId deviceId signal =>
      obtain ⟨outcome, pick⟩ := input
      cases pick with
      | channels order =>
        simp only [SigState.exec, MapAccess.effect] at h
        split at h
        · cases h
          exact ⟨rfl, rfl, rfl⟩
        · cases h
      | _ => cases h
  | redis command =>
    cases fallible_case h with
    | failed => exact .refl s
    | effect he _ =>
      obtain ⟨⟨-, hme, -, -⟩, hpo⟩ := frame_of_redis he
      refine ⟨?_, ?_, hpo (fun _ _ heq => ?_) fun _ heq => ?_⟩
      · unfold calls
        rw [hme]
      · unfold active
        rw [hme]
      all_goals
        subst heq
        exact hq
  | unregister i userId deviceId =>
    cases h
    unfold SigState.unregister
    dsimp only
    split
    · exact .refl s
    · split
      · exact sameBusy_setMemory rfl rfl
      · obtain ⟨hca, ha, -⟩ := sameBusy_setMemory (s := s) (m := { s.memory () with
          channels := update (s.memory ()).channels userId
            (((s.memory ()).channels userId).filter (·.1 ≠ deviceId)) }) rfl rfl
        exact ⟨hca, ha, rfl⟩

theorem keeps_work (hw : w'.2.working ≠ []) (hre : ∀ m ∈ w'.2.removing.map Prod.fst,
      m ∈ w.2.removing.map Prod.fst ∨ m = n) (hst : w'.2.stolen = false) : oneByOne.Keeps n c w w' := by
  refine ⟨⟨fun hni => absurd hni hw, hst⟩, fun n' hlt hf hn' => ?_, fun _ _ _ => False.elim⟩
  rcases hre n' hn' with hn' | rfl
  · exact hf hn'
  · exact Nat.lt_irrefl _ hlt

/-- What a session knows: something of the calls and the pointers, and which call it has taken out.
-/
structure Knows (n : Nat) (target : Option String) (L : SigState Unit → Prop) (w : SigState Unit × BusyLog) :
    Prop where
  holds : L w.1
  target : w.2.target n = target

def Frames (L : SigState Unit → Prop) : Prop := ∀ {s s'}, L s → SameBusy s s' → s.now ≤ s'.now → L s'

variable {L L' : SigState Unit → Prop} {target : Option String} {α : Type}
  {post : α → SigState Unit × BusyLog → Prop}

theorem Knows.stable (hL : Frames L) (hw : Knows n target L w) (hre : oneByOne.rely n c w w') :
    Knows n target L w' := by
  obtain ⟨hs, hn, hl⟩ := hre
  exact ⟨hL hw.holds hs hn, hl ▸ hw.target⟩

theorem keeps_step {q : SigStatement Unit} {input : Input (SigPick Unit)} {x : q.Answer}
    (L' : SigState Unit → Prop) (hinv : oneByOne.inv w) (hw : Knows n target L w)
    (hno : noteBusy n q x w.1 w.2 = w.2.work n) (he : busyExec n q input w = some (x, w'))
    (hst : L w.1 → w.1.exec q input = some (x, w'.1) → L' w'.1) : oneByOne.Keeps n c w w' ∧
      Knows n target L' w' := by
  obtain ⟨hef, hl⟩ := noted_eq_some he
  rw [hno] at hl
  refine ⟨keeps_work ?_ ?_ ?_, hst hw.holds hef, ?_⟩
  · rw [hl]
    exact cons_ne_nil _ _
  · rw [hl]
    exact fun m hm => .inl hm
  · rw [hl]
    exact hinv.2
  · rw [hl]
    exact hw.target

theorem safe_aside {p : Sig Unit α} (hL : Frames L) (hp : p.Asks Aside) (hw : Knows n target L w) :
    oneByOne.Safe busyExec n c p (fun _ => Knows n target L) w := by
  refine Discipline.safe_of_keeps (Knows n target L) (fun _ _ => Knows.stable hL) ?_ (fun _ _ hw => hw) hp hw
  intro q input w x w' hq hinv hw _ hexe
  have hno : noteBusy n q x w.1 w.2 = w.2.work n := by
    cases q with
    | map i access =>
      cases access with
      | removeCall _ | removeActive _ => exact hq.elim
      | _ => rfl
    | redis command =>
      cases command with
      | delPointer _ => exact hq.elim
      | _ => rfl
    | _ => rfl
  exact keeps_step L hinv hw hno hexe fun hL₀ he =>
    hL hL₀ (sameBusy_of_exec hq he) (now_of_exec he).ge

end

/-! ### Removing -/

section

variable {n : Nat} {c : BusyOp} {w w' : SigState Unit × BusyLog} {s s' s₀ : SigState Unit}
  {callId userId : String} {skip : List String} {state : CallState} {target : Option String}

theorem calls_setMemory {m : Memory} : calls (s.setMemory () m) = m.calls := calls_setMemory_self

theorem active_setMemory {m : Memory} : active (s.setMemory () m) = m.activeCalls := by
  show (update s.memory () m ()).activeCalls = m.activeCalls
  rw [update_self]

/-- Calls and pointers may have gone, and nothing else has changed. -/
structure Less (s₀ s : SigState Unit) : Prop where
  calls : ∀ callId, calls s callId = none ∨ calls s callId = calls s₀ callId
  active : ∀ userId, active s userId = none ∨ active s userId = active s₀ userId

theorem Less.refl (s : SigState Unit) : Less s s := ⟨fun _ => .inr rfl, fun _ => .inr rfl⟩

theorem Less.congr (h : Less s₀ s) (hs : SameBusy s s') : Less s₀ s' := by
  refine ⟨fun callId => ?_, fun userId => ?_⟩
  · rw [hs.calls]
    exact h.calls callId
  · rw [hs.active]
    exact h.active userId

/-- The map has lost a call, and nothing else knows of it. -/
structure Cut (s₀ : SigState Unit) (callId : String) (state : CallState) (s : SigState Unit) : Prop where
  rest : RestOf (update (calls s) callId (some state)) (active s) s.pointers []
  gone : calls s callId = none
  less : Less s₀ s

theorem frames_cut : Frames (Cut s₀ callId state) := by
  intro s s' h hs _
  refine ⟨?_, ?_, h.less.congr hs⟩
  · rw [hs.calls, hs.active, hs.pointers]
    exact h.rest
  · rw [hs.calls]
    exact h.gone

/-- The maps have lost a call, and Redis still has the pointers of some users to it. -/
structure Clearing (s₀ : SigState Unit) (callId : String) (skip : List String) (s : SigState Unit) : Prop where
  rest : Rest skip s
  gone : calls s callId = none
  less : Less s₀ s
  absent : ∀ userId ∈ skip, active s userId = none
  named : ∀ userId ∈ skip, ∀ cell ∈ s.pointers (activeCallKey userId), cell.value = callId

theorem frames_clearing : Frames (Clearing s₀ callId skip) := by
  intro s s' h hs _
  refine ⟨h.rest.congr hs, ?_, h.less.congr hs, ?_, ?_⟩
  · rw [hs.calls]
    exact h.gone
  · rw [hs.active]
    exact h.absent
  · rw [hs.pointers]
    exact h.named

theorem take_of_own {g : BusyLog} {pointer : Option String} (hta : g.target n = some callId)
    (ho : ∀ named ∈ pointer, named = callId) : g.take n pointer = g := by
  refine if_neg fun hba => ?_
  obtain ⟨id, hid, named, hna, hne⟩ := hba
  cases hta.symm.trans hid
  exact hne (ho named hna)

theorem safe_removeActive {f : Unit → Sig Unit Unit} {post : Unit → SigState Unit × BusyLog → Prop}
    (hw : Knows n (some callId) (Cut s₀ callId state) w) (hr : ∀ {w}, Knows n (some callId)
      (Clearing s₀ callId [state.callerUserId, state.calleeUserId]) w → oneByOne.Safe busyExec n c (f ()) post w) :
    oneByOne.Safe busyExec n c (map () (.removeActive [state.callerUserId, state.calleeUserId]) >>= f) post w := by
  refine safe_map fun w₁ input x w' hinv hrel _ he => ?_
  obtain ⟨hcu, hta⟩ := hw.stable frames_cut hrel
  obtain ⟨hef, hl⟩ := noted_eq_some he
  have hs : w'.1 = _ := (congrArg Prod.snd (some.inj hef)).symm
  have hpa : ∀ u, Has state u → active w₁.1 u = some callId :=
    hcu.rest.party callId state (update_self _ _ _)
  have hl : w'.2 = w₁.2.work n := by
    rw [hl]
    have ho : ∀ u, Has state u → ∀ named ∈ active w₁.1 u, named = callId := by
      intro u hu named hna
      exact some.inj (hna.symm.trans (hpa u hu))
    have hta : (w₁.2.work n).target n = some callId := hta
    show ((w₁.2.work n).take n (active w₁.1 state.callerUserId)).take n (active w₁.1 state.calleeUserId) = _
    rw [take_of_own hta (ho _ mem_cons_self),
      take_of_own hta (ho _ (mem_cons_of_mem _ mem_cons_self))]
  have hca : calls w'.1 = calls w₁.1 := by
    rw [hs]
    exact calls_setMemory
  have ha : active w'.1 =
      fun u => if u ∈ [state.callerUserId, state.calleeUserId] then none else active w₁.1 u := by
    rw [hs]
    exact active_setMemory
  have hpo : w'.1.pointers = w₁.1.pointers := by
    rw [hs]
    rfl
  refine ⟨keeps_work ?_ ?_ ?_, hr ⟨⟨?_, ?_, ⟨fun id => ?_, fun u => ?_⟩, fun u hu => ?_, fun u hu cell hce => ?_⟩, ?_⟩⟩
  · rw [hl]
    exact cons_ne_nil _ _
  · rw [hl]
    exact fun m hm => .inl hm
  · rw [hl]
    exact hinv.2
  · unfold Rest
    rw [hca, ha, hpo]
    have hre := hcu.rest.remove (update_self callId (some state) (calls w₁.1))
    rw [update_idem, ← hcu.gone, update_eq_self] at hre
    exact hre
  · rw [hca]
    exact hcu.gone
  · rw [hca]
    exact hcu.less.calls id
  · rw [ha]
    dsimp only
    split
    · exact .inl rfl
    · exact hcu.less.active u
  · rw [ha]
    exact if_pos hu
  · rw [hpo] at hce
    have hva := hcu.rest.redis u not_mem_nil
    rw [mem_def.mp hce, hpa u hu] at hva
    exact some.inj hva
  · rw [hl]
    exact hta

theorem safe_delPointer {f : Unit → Sig Unit Unit} {post : Unit → SigState Unit × BusyLog → Prop}
    (hw : Knows n (some callId) (Clearing s₀ callId (userId :: skip)) w)
    (hr : ∀ {w}, Knows n (some callId) (Clearing s₀ callId skip) w → oneByOne.Safe busyExec n c (f ()) post w) :
    oneByOne.Safe busyExec n c (pipe (.delPointer userId) >>= f) post w := by
  refine safe_pipe fun w₁ input x w' hinv hre hcar hexe => ?_
  obtain ⟨hcl, hta⟩ := hw.stable frames_clearing hre
  obtain ⟨he, hl⟩ := noted_eq_some hexe
  replace he : fallible RedisCommand.effect (.delPointer userId) input w₁.1 = some (x, w'.1) := he
  have hs : w'.1 = { w₁.1 with pointers := w₁.1.pointers.del (activeCallKey userId) } :=
    eq_of_fallible hcar he rfl
  have hl : w'.2 = w₁.2.work n := by
    rw [hl]
    have hta : (w₁.2.work n).target n = some callId := hta
    refine take_of_own hta fun named hna => ?_
    obtain ⟨cell, hce, -, rfl⟩ := get_eq_some_iff.mp hna
    exact hcl.named userId mem_cons_self cell hce
  have hca : calls w'.1 = calls w₁.1 := by
    rw [hs]
    rfl
  have ha : active w'.1 = active w₁.1 := by
    rw [hs]
    rfl
  have hpo : w'.1.pointers = w₁.1.pointers.del (activeCallKey userId) := by
    rw [hs]
  refine ⟨keeps_work ?_ ?_ ?_, hr ⟨⟨?_, ?_, ⟨?_, ?_⟩, fun u hu => ?_, fun u hu cell hce => ?_⟩, ?_⟩⟩
  · rw [hl]
    exact cons_ne_nil _ _
  · rw [hl]
    exact fun m hm => .inl hm
  · rw [hl]
    exact hinv.2
  · unfold Rest
    rw [hca, ha, hpo]
    exact hcl.rest.delPointer (hcl.absent userId mem_cons_self)
  · rw [hca]
    exact hcl.gone
  · rw [hca]
    exact hcl.less.calls
  · rw [ha]
    exact hcl.less.active
  · rw [ha]
    exact hcl.absent u (mem_cons_of_mem _ hu)
  · rw [hpo] at hce
    by_cases heq : u = userId
    · rw [heq, Keyspace.del, update_self] at hce
      cases hce
    · rw [del_apply_of_ne fun hk => heq (activeCallKey_injective hk)] at hce
      exact hcl.named u (mem_cons_of_mem _ hu) cell hce
  · rw [hl]
    exact hta

/-- Everything agrees, and since a point calls and pointers have only gone. -/
structure Shrunk (s₀ s : SigState Unit) : Prop where
  rest : Rest [] s
  less : Less s₀ s

theorem frames_shrunk : Frames (Shrunk s₀) :=
  fun h hs _ => ⟨h.rest.congr hs, h.less.congr hs⟩

def Removed (s₀ : SigState Unit) (callId : String) (s : SigState Unit) : Prop := Clearing s₀ callId [] s

theorem safe_removeCall (hw : Knows n target (Shrunk s₀) w) :
    oneByOne.Safe busyExec n c (removeCall () callId) (fun _ w => ∃ t, Knows n t (Removed s₀ callId) w) w := by
  refine safe_map fun w₁ input x w' hinv hre _ hexe => ?_
  obtain ⟨hsh, hta⟩ := hw.stable frames_shrunk hre
  obtain ⟨he, hlo⟩ := noted_eq_some hexe
  have hx : calls w₁.1 callId = x := congrArg Prod.fst (some.inj he)
  have hs : w'.1 = _ := (congrArg Prod.snd (some.inj he)).symm
  have hca : calls w'.1 = update (calls w₁.1) callId none := by
    rw [hs]
    exact calls_setMemory
  have ha : active w'.1 = active w₁.1 := by
    rw [hs]
    exact active_setMemory
  have hpo : w'.1.pointers = w₁.1.pointers := by
    rw [hs]
    rfl
  have hg : calls w'.1 callId = none := by
    rw [hca]
    exact update_self _ _ _
  have hl : Less s₀ w'.1 := by
    refine ⟨fun id => ?_, fun u => ?_⟩
    · by_cases hid : id = callId
      · exact .inl (hid ▸ hg)
      · rw [hca, update_of_ne hid]
        exact hsh.less.calls id
    · rw [ha]
      exact hsh.less.active u
  cases x with
  | none =>
    have hlo : w'.2 = w₁.2.work n := hlo
    have hsa : calls w'.1 = calls w₁.1 := by
      rw [hca, ← hx, update_eq_self]
    refine ⟨keeps_work (by rw [hlo]; exact cons_ne_nil _ _) (by rw [hlo]; exact fun m hm => .inl hm)
      (by rw [hlo]; exact hinv.2), target, ⟨?_, hg, hl, ?_, ?_⟩, by rw [hlo]; exact hta⟩
    · exact hsh.rest.congr ⟨hsa, ha, hpo⟩
    · exact fun u hu => absurd hu not_mem_nil
    · exact fun u hu => absurd hu not_mem_nil
  | some state =>
    have hlo : w'.2 = { w₁.2.work n with removing := (n, callId) :: w₁.2.removing } := hlo
    have hkn : Knows n (some callId) (Cut s₀ callId state) w' := by
      refine ⟨⟨?_, hg, hl⟩, ?_⟩
      · rw [hca, ha, hpo, update_idem, ← hx, update_eq_self]
        exact hsh.rest
      · rw [hlo]
        simp [BusyLog.target]
    refine ⟨keeps_work (by rw [hlo]; exact cons_ne_nil _ _) ?_ (by rw [hlo]; exact hinv.2), ?_⟩
    · rw [hlo]
      intro m hm
      rcases mem_cons.mp hm with rfl | hm
      · exact .inr rfl
      · exact .inl hm
    · refine safe_removeActive hkn fun hw => ?_
      refine Discipline.Safe.andThen _ (safe_aside frames_clearing (asks_pipe trivial) hw) fun _ w hw => ?_
      refine safe_delPointer hw fun hw => safe_delPointer hw fun hw => ?_
      have hsr : (pipe (.srem callId) : Sig Unit Unit).Asks Aside := asks_pipe trivial
      exact (safe_aside frames_clearing hsr hw).mono fun _ _ hw => ⟨_, hw⟩

/-- A user whose pointer is gone. -/
structure NotBusy (s₀ : SigState Unit) (userId : String) (s : SigState Unit) : Prop extends Shrunk s₀ s where
  absent : active s userId = none

theorem frames_notBusy : Frames (NotBusy s₀ userId) := by
  intro s s' h hs hn
  refine ⟨frames_shrunk h.toShrunk hs hn, ?_⟩
  rw [hs.active]
  exact h.absent

theorem Removed.notBusy (h : Removed s₀ callId s) (hpo : active s₀ userId = some callId) :
    NotBusy s₀ userId s := by
  refine ⟨⟨h.rest, h.less⟩, ?_⟩
  rcases h.less.active userId with hno | hs
  · exact hno
  · obtain ⟨state, hst, -⟩ := h.rest.pointer userId callId (hs.trans hpo)
    cases h.gone.symm.trans hst

theorem asks_existsCall : (callExistsInRedis callId : Sig Unit Bool).Asks Aside :=
  asks_redis trivial fun _ => trivial

theorem safe_isUserBusy (hw : Knows n target (fun s => Rest [] s ∧ SameBusy s₀ s) w) :
    oneByOne.Safe busyExec n c (isUserBusy () userId)
      (fun busy w => ∃ t, Knows n t (Shrunk s₀) w ∧ (busy = false → NotBusy s₀ userId w.1)) w := by
  have hf : Frames (fun s => Rest [] s ∧ SameBusy s₀ s) := fun h hs _ =>
    ⟨h.1.congr hs, hs.calls.trans h.2.calls, hs.active.trans h.2.active,
      hs.pointers.trans h.2.pointers⟩
  have hsh : ∀ {s}, Rest [] s ∧ SameBusy s₀ s → Shrunk s₀ s := fun h => ⟨h.1, (Less.refl s₀).congr h.2⟩
  refine Discipline.Safe.andThen (fun r w => ∃ t, Knows n t (Shrunk s₀) w ∧ (r = none → NotBusy s₀ userId w.1)) ?_ ?_
  · refine safe_map fun w₁ input x w' hinv hre _ hexe => ?_
    have hw₁ := hw.stable hf hre
    have hx : active s₀ userId = x := by
      rw [← hw₁.holds.2.active]
      exact congrArg Prod.fst (some.inj (noted_eq_some hexe).1)
    obtain ⟨hke, hw'⟩ := keeps_step (c := c) (q := .map () (.getActive userId))
      (fun s => Rest [] s ∧ SameBusy s₀ s) hinv hw₁ rfl hexe
      fun h he => hf h (sameBusy_of_exec (q := .map () (.getActive userId)) trivial he)
        (now_of_exec he).ge
    refine ⟨hke, ?_⟩
    cases x with
    | some callId =>
      refine Discipline.Safe.andThen _ (safe_aside hf asks_existsCall hw') fun found w hw => ?_
      split
      · exact ⟨target, ⟨hsh hw.holds, hw.target⟩, fun h => by cases h⟩
      · have hw : Knows n target (Shrunk s₀) w := ⟨hsh hw.holds, hw.target⟩
        refine Discipline.Safe.andThen _ (safe_removeCall hw)
          fun _ w ⟨t, hw⟩ => ⟨t, ⟨?_, hw.target⟩, fun _ => hw.holds.notBusy hx⟩
        exact (hw.holds.notBusy hx).toShrunk
    | none =>
      refine safe_redis fun w₁ input x w' hinv hre _ hexe => ?_
      have hw₁ := hw'.stable hf hre
      obtain ⟨he, -⟩ := noted_eq_some hexe
      obtain ⟨hke, hw'⟩ := keeps_step (c := c) (q := .redis (.getPointer userId))
        (fun s => Rest [] s ∧ SameBusy s₀ s) hinv hw₁ rfl hexe
        fun h he => hf h (sameBusy_of_exec (q := .redis (.getPointer userId)) trivial he)
          (now_of_exec he).ge
      refine ⟨hke, ?_⟩
      -- Redis has no pointer that the map does not have.
      have hab : x.join = none := by
        rcases x with - | - | callId
        · rfl
        · rfl
        · replace he : fallible RedisCommand.effect (.getPointer userId) input w₁.1 =
            some (some (some callId), w'.1) := he
          have hg : w₁.1.pointers.get w₁.1.now (activeCallKey userId) = some callId :=
            congrArg Prod.fst (some.inj (effect_of_reply he))
          obtain ⟨cell, hce, -, -⟩ := get_eq_some_iff.mp hg
          have hva := hw₁.holds.1.redis userId not_mem_nil
          rw [hce, hw₁.holds.2.active, hx] at hva
          cases hva
      rw [hab]
      refine ⟨target, ⟨hsh hw'.holds, hw'.target⟩, fun _ => ⟨hsh hw'.holds, ?_⟩⟩
      rw [hw'.holds.2.active]
      exact hx
  · rintro r w ⟨t, hw, hno⟩
    refine ⟨t, hw, fun hbu => hno ?_⟩
    cases r with
    | none => rfl
    | some callId => cases hbu

end

/-! ### Creating -/

section

variable {n : Nat} {c : BusyOp} {w w' : SigState Unit × BusyLog} {s s' s₀ : SigState Unit}
  {callId caller callee device userId : String} {skip : List String} {state : CallState} {target : Option String}
  {now offeredAtMs : Nat} {α : Type} {post : α → SigState Unit × BusyLog → Prop}

/-- Everything agrees, the id is new, and neither user is in a call. -/
structure Room (callId caller callee : String) (s : SigState Unit) : Prop where
  rest : Rest [] s
  new : calls s callId = none
  caller : active s caller = none
  callee : active s callee = none

/-- The map has the new call, and nothing else knows of it. -/
structure Placed (callId : String) (state : CallState) (s : SigState Unit) : Prop where
  room : RestOf (update (calls s) callId none) (active s) s.pointers []
  call : calls s callId = some state
  caller : active s state.callerUserId = none
  callee : active s state.calleeUserId = none
  past : state.createdAt * 1000 ≤ s.now

theorem frames_placed : Frames (Placed callId state) := by
  intro s s' h hs hn
  refine ⟨?_, ?_, ?_, ?_, h.past.trans hn⟩
  · rw [hs.calls, hs.active, hs.pointers]
    exact h.room
  · rw [hs.calls]
    exact h.call
  · rw [hs.active]
    exact h.caller
  · rw [hs.active]
    exact h.callee

structure Telling (callId : String) (state : CallState) (skip : List String) (s : SigState Unit) : Prop where
  rest : Rest skip s
  call : calls s callId = some state
  pointers : ∀ userId ∈ skip, active s userId = some callId
  past : state.createdAt * 1000 ≤ s.now

theorem frames_telling : Frames (Telling callId state skip) := by
  intro s s' h hs hn
  refine ⟨h.rest.congr hs, ?_, ?_, h.past.trans hn⟩
  · rw [hs.calls]
    exact h.call
  · rw [hs.active]
    exact h.pointers

variable {input : Input (SigPick Unit)}

theorem telling_of_setPointer
    {x : Option (RedisCommand.setPointer (ι := Unit) userId callId).Reply}
    (h : Telling callId state (userId :: skip) s) (hl : input.outcome ≠ .failed)
    (he : s.exec (.redis (.setPointer userId callId)) input = some (x, s')) :
    Telling callId state skip s' := by
  replace he : fallible RedisCommand.effect (.setPointer userId callId) input s = some (x, s') := he
  have hs : s' = { s with pointers := s.pointers.set s.now (activeCallKey userId) callId (some 300) } :=
    eq_of_fallible hl he rfl
  subst hs
  refine ⟨?_, h.call, fun u hu => h.pointers u (mem_cons_of_mem _ hu), h.past⟩
  refine h.rest.setPointer (h.pointers userId mem_cons_self) fun other ho => ?_
  cases h.call.symm.trans ho
  exact h.past

theorem safe_setPointer {f : Unit → Sig Unit α}
    (hw : Knows n target (Telling callId state (userId :: skip)) w)
    (hr : ∀ {w}, Knows n target (Telling callId state skip) w → oneByOne.Safe busyExec n c (f ()) post w) :
    oneByOne.Safe busyExec n c (pipe (.setPointer userId callId) >>= f) post w :=
  safe_pipe fun w₁ input x w' hinv hre hca he => by
    obtain ⟨hke, hw'⟩ := keeps_step (c := c) (Telling callId state skip) hinv (hw.stable frames_telling hre)
      rfl he fun h hef => telling_of_setPointer h hca hef
    exact ⟨hke, hr hw'⟩

theorem placed_of_insertCall {x : Unit}
    (h : Room callId state.callerUserId state.calleeUserId s) (hpa : state.createdAt * 1000 ≤ s.now)
    (he : s.exec (.map () (.insertCall callId state)) input = some (x, s')) : Placed callId state s' := by
  cases he
  refine ⟨?_, ?_, ?_, ?_, hpa⟩
  · rw [calls_setMemory, active_setMemory, update_idem]
    have hs : update (calls s) callId none = calls s := by
      rw [← h.new, update_eq_self]
    exact hs.symm ▸ h.rest
  · rw [calls_setMemory]
    exact update_self _ _ _
  · rw [active_setMemory]
    exact h.caller
  · rw [active_setMemory]
    exact h.callee

theorem telling_of_insertActive {x : Unit} (h : Placed callId state s)
    (he : s.exec (.map () (.insertActive [state.callerUserId, state.calleeUserId] callId)) input =
      some (x, s')) : Telling callId state [state.callerUserId, state.calleeUserId] s' := by
  cases he
  have hf : ∀ u, Has state u → active s u = none := by
    intro u hu
    simp only [Has, mem_cons, not_mem_nil, or_false] at hu
    rcases hu with rfl | rfl
    · exact h.caller
    · exact h.callee
  refine ⟨?_, ?_, fun u hu => ?_, h.past⟩
  · unfold Rest
    rw [calls_setMemory, active_setMemory]
    have hin := h.room.insert (update_self callId none (calls s)) hf
    rw [update_idem, ← h.call, update_eq_self] at hin
    exact hin
  · rw [calls_setMemory]
    exact h.call
  · rw [active_setMemory]
    exact if_pos hu

theorem safe_createCall (hw : Knows n target (Room callId caller callee) w) :
    oneByOne.Safe busyExec n c (createCall () callId caller device callee offeredAtMs)
      (fun _ => Knows n target (Rest [])) w := by
  have hro : Frames (Room callId caller callee) := by
    intro s s' h hs _
    refine ⟨h.rest.congr hs, ?_, ?_, ?_⟩
    · rw [hs.calls]
      exact h.new
    · rw [hs.active]
      exact h.caller
    · rw [hs.active]
      exact h.callee
  -- The clock is read first.
  refine Discipline.Safe.andThen
    (fun now => Knows n target fun s => Room callId caller callee s ∧ now * 1000 ≤ s.now) ?_ fun now w hw => ?_
  · intro w₁ input x w' hinv hre _ hexe
    obtain ⟨hke, hw'⟩ := keeps_step (c := c) (q := .clock)
      (fun s => Room callId caller callee s ∧ x / 1000 * 1000 ≤ s.now) hinv (hw.stable hro hre) rfl hexe
      fun h he => by
        have hx : w₁.1.now = x := congrArg Prod.fst (some.inj he)
        have hn := now_of_exec he
        refine ⟨hro h (sameBusy_of_exec (q := .clock) trivial he) hn.ge, ?_⟩
        rw [hn, hx]
        exact Nat.div_mul_le_self x 1000
    exact ⟨hke, hw'⟩
  · have hf : Frames fun s => Room callId caller callee s ∧ now * 1000 ≤ s.now :=
      fun h hs hn => ⟨hro h.1 hs hn, h.2.trans hn⟩
    let state : CallState := ⟨callId, caller, callee, device, none, now, offeredAtMs, none, none, now, now⟩
    refine safe_map fun w₁ input x w' hinv hre _ hexe => ?_
    obtain ⟨hke, hw⟩ := keeps_step (c := c) (Placed callId state) hinv (hw.stable hf hre) rfl hexe
      fun h he => placed_of_insertCall h.1 h.2 he
    refine ⟨hke, ?_⟩
    refine safe_map fun w₁ input x w' hinv hre _ hexe => ?_
    obtain ⟨hke, hw⟩ := keeps_step (c := c) (Telling callId state [caller, callee]) hinv
      (hw.stable frames_placed hre) rfl hexe fun h he => telling_of_insertActive h he
    refine ⟨hke, ?_⟩
    refine Discipline.Safe.andThen _ (safe_aside frames_telling (asks_pipe trivial) hw) fun _ w hw => ?_
    refine Discipline.Safe.andThen _ (safe_aside frames_telling (asks_pipe trivial) hw) fun _ w hw => ?_
    refine safe_setPointer hw fun hw => safe_setPointer hw fun hw => ?_
    have hset : (do
        pipe (.sadd callId)
        pipe .expireSet : Sig Unit Unit).Asks Aside :=
      asks_pipe_then trivial (asks_pipe trivial)
    exact (safe_aside frames_telling hset hw).mono fun _ _ hw => ⟨hw.holds.rest, hw.target⟩

end

/-! ### Every run -/

section

variable {n : Nat} {c : BusyOp} {w : SigState Unit × BusyLog} {hasDatabase : Bool} {req : InitiateCall}

theorem Sends.aside {signal : ForwardedSignal} (q : SigStatement Unit) (h : Sends signal q) : Aside q := by
  cases q with
  | map i access => cases access <;> first | exact h.elim | trivial
  | redis command => cases command <;> first | exact h.elim | trivial
  | _ => trivial

theorem safe_initiateCall {s₀ : SigState Unit} {target : Option String} (hn : calls s₀ req.callId = none)
    (hca : active s₀ req.callerId = none) (hw : Knows n target (fun s => Rest [] s ∧ SameBusy s₀ s) w) :
    oneByOne.Safe busyExec n c (initiateCall () hasDatabase req) (fun _ w => Rest [] w.1) w := by
  have hf : Frames (fun s => Rest [] s ∧ SameBusy s₀ s) := fun h hs _ =>
    ⟨h.1.congr hs, hs.calls.trans h.2.calls, hs.active.trans h.2.active,
      hs.pointers.trans h.2.pointers⟩
  have hr : Frames (Rest []) := fun h hs _ => h.congr hs
  refine Discipline.Safe.andThen _ (safe_aside hf (asks_admitCall fun _ _ _ => trivial) hw) fun admitted w hw => ?_
  cases admitted with
  | error status => exact hw.holds.1
  | ok _ =>
    refine Discipline.Safe.andThen _ (safe_isUserBusy hw) fun busy w hbu => ?_
    obtain ⟨t, hw, hfr⟩ := hbu
    cases busy with
    | true => exact hw.holds.rest
    | false =>
      have hnBusy : Knows n t (NotBusy s₀ req.calleeUserId) w := ⟨hfr rfl, hw.target⟩
      refine Discipline.Safe.andThen _ (safe_aside frames_notBusy (asks_redis trivial fun _ => trivial) hnBusy)
        fun devices w hw => ?_
      refine Discipline.Safe.andThen _ (safe_aside frames_notBusy (asks_unixMillis trivial) hw)
        fun offeredAtMs w hw => ?_
      have hro : Knows n t (Room req.callId req.callerId req.calleeUserId) w := by
        refine ⟨⟨hw.holds.rest, ?_, ?_, hw.holds.absent⟩, hw.target⟩
        · rcases hw.holds.less.calls req.callId with hno | hs
          · exact hno
          · exact hs.trans hn
        · rcases hw.holds.less.active req.callerId with hno | hs
          · exact hno
          · exact hs.trans hca
      refine Discipline.Safe.andThen _ (safe_createCall hro) fun _ w hw => ?_
      refine Discipline.Safe.andThen _ (safe_aside hr (asks_pipe_then trivial (asks_pipe trivial)) hw)
        fun _ w hw => ?_
      split
      · exact hw.holds
      · exact Discipline.Safe.andThen _ (safe_aside hr (sends_toUser.mono Sends.aside) hw) fun _ _ hw => hw.holds

theorem safe_busyBody (hinv : oneByOne.inv w) (hf : oneByOne.fresh n w) (hbe : oneByOne.begins c w) :
    oneByOne.Safe busyExec n c (busyBody c) (fun _ w => Rest [] w.1) w := by
  obtain ⟨hni, hbe⟩ := hbe
  have hr := hinv.1 hni
  have hta : w.2.target n = none := by
    unfold BusyLog.target
    rw [map_eq_none_iff, List.find?_eq_none]
    intro p hp heq
    exact hf (mem_map.mpr ⟨p, hp, of_decide_eq_true heq⟩)
  cases c with
  | initiate hasDatabase req =>
    have hw : Knows n none (fun s => Rest [] s ∧ SameBusy w.1 s) w := ⟨⟨hr, .refl _⟩, hta⟩
    exact Discipline.Safe.andThen _ (safe_initiateCall hbe.1 hbe.2 hw) fun _ _ h => h
  | remove callId =>
    have hw : Knows n none (Shrunk w.1) w := ⟨⟨hr, .refl _⟩, hta⟩
    exact (safe_removeCall hw).mono fun _ _ ⟨_, hw⟩ => hw.holds.rest

theorem ends_busy {a : Unit} (hr : Rest [] w.1) : oneByOne.Ends noteBusyEnd n c a w := by
  intro hinv
  refine ⟨⟨fun _ => hr, hinv.2⟩, fun n' _ hf hn' => hf ?_, fun _ _ _ => False.elim⟩
  obtain ⟨p, hp, hpn⟩ := mem_map.mp hn'
  exact mem_map.mpr ⟨p, (mem_filter.mp hp).1, hpn⟩

theorem tick_busy : oneByOne.Bears tickBusy := by
  intro ms w hinv
  have hs : SameBusy w.1 (tickBusy ms w).1 := ⟨rfl, rfl, rfl⟩
  exact ⟨⟨fun hni => (hinv.1 hni).congr hs, hinv.2⟩, fun _ hf => hf, fun _ _ => ⟨hs, Nat.le_add_right _ _, rfl⟩⟩

/-- No call is older than its pointers in Redis become. -/
def Timely (s : SigState Unit) : Prop :=
  ∀ callId, ∀ state ∈ calls s callId, s.now ≤ state.createdAt * 1000 + 300 * 1000

/-- The pointers follow the calls: what the pointers of a user name is a call that the user is in;
every party of a call has both pointers to it; and no two calls share a callee. -/
structure BusyFollows (s : SigState Unit) : Prop where
  memory : ∀ userId callId, active s userId = some callId → ∃ state ∈ calls s callId, Has state userId
  redis : ∀ userId callId, s.pointers.get s.now (activeCallKey userId) = some callId →
    ∃ state ∈ calls s callId, Has state userId
  party : ∀ callId, ∀ state ∈ calls s callId, ∀ userId, Has state userId → active s userId = some callId ∧
    s.pointers.get s.now (activeCallKey userId) = some callId
  callee : ∀ callId callId', ∀ state ∈ calls s callId, ∀ state' ∈ calls s callId',
    state.calleeUserId = state'.calleeUserId → callId = callId'

theorem Rest.follows {s : SigState Unit} (h : Rest [] s) (ht : Timely s) : BusyFollows s := by
  have hca : ∀ callId, ∀ state ∈ calls s callId, active s state.calleeUserId = some callId :=
    fun callId state hst =>
      h.party callId state hst _ (mem_cons_of_mem _ mem_cons_self)
  refine ⟨h.pointer, fun u id hg => ?_, fun id state hst u hu => ?_, fun id id' state hst state' hs' heq => ?_⟩
  · obtain ⟨cell, hce, -, hva⟩ := get_eq_some_iff.mp hg
    have hre := h.redis u not_mem_nil
    rw [hce] at hre
    exact h.pointer u id (hre.symm.trans (congrArg some hva))
  · have ha := h.party id state hst u hu
    refine ⟨ha, ?_⟩
    have hre := h.redis u not_mem_nil
    rw [ha] at hre
    obtain ⟨cell, hce, hva⟩ := map_eq_some_iff.mp hre
    refine get_eq_some_iff.mpr ⟨cell, hce, ?_, hva⟩
    unfold Cell.live
    rw [all_eq_true_iff_get]
    intro hs
    exact decide_eq_true ((ht id state hst).trans
      (h.fresh id state hst u hu not_mem_nil cell hce _ (get_mem hs)))
  · have hbo := (hca id state hst).symm.trans ((congrArg (active s) heq).trans (hca id' state' hs'))
    exact some.inj hbo

/-- In every run of InitiateCall requests and removals that come one after the other, with new ids,
callers who are not in a call and pointer writes that take effect: no removal has taken away a
pointer to another call, and at rest, while no call is older than 300 seconds, the pointers follow
the calls. -/
theorem pointers_follow_the_calls {s : SigState Unit} {as : List BusyAction} {pool : BusyPool}
    (hs : Rest [] s)
    (hcareful : Along busyStep oneByOne.Careful (.init (s, .empty)) as)
    (hrun : run busyStep (.init (s, .empty)) as = some pool) :
    pool.store.2.stolen = false ∧
      (pool.store.2.working = [] → Timely pool.store.1 → BusyFollows pool.store.1) := by
  have hbody : oneByOne.SafeBodies busyExec (fun c _ => busyBody c) noteBusyEnd :=
    fun n c w hinv hfresh hbegins => (safe_busyBody hinv hfresh hbegins).mono fun _ _ => ends_busy
  have hinit : oneByOne.inv (s, .empty) := ⟨fun _ => hs, rfl⟩
  have hfresh : ∀ n, oneByOne.fresh n (s, .empty) := fun n => not_mem_nil
  have hinv := oneByOne.run_invariant hbody tick_busy hinit hfresh hcareful hrun
  exact ⟨hinv.2, fun hnil htimely => (hinv.1 hnil).follows htimely⟩

end

/-! ### A caller who is already in a call -/

section

def alice : String := (Uuid.repeated (Uuid.digit 1)).toStr

def bob : String := (Uuid.repeated (Uuid.digit 2)).toStr

def carol : String := (Uuid.repeated (Uuid.digit 3)).toStr

def goesOn (picks : List (SigPick Unit)) : List BusyAction := picks.map fun pick => .step 0 ⟨.ok, pick⟩

def callsUp (callId caller callee : String) : List BusyAction :=
  .start (.initiate true ⟨caller, "device", callId, callee⟩) ::
    goesOn ([.passes true, .passes false, .passes true, .passes true, .passes true, .none, .none, .devices []] ++
      List.replicate 12 .none)

def removes (callId : String) : List BusyAction := .start (.remove callId) :: goesOn (List.replicate 6 .none)

attribute [reducible] oneByOne

instance decidableBusyBegins (c : BusyOp) (w : SigState Unit × BusyLog) : Decidable (oneByOne.begins c w) := by
  cases c <;> infer_instance

instance decidableBusyCare (c : BusyOp) (q : SigStatement Unit) (input : Input (SigPick Unit))
    (w : SigState Unit × BusyLog) : Decidable (oneByOne.care c q input w) := by
  cases q with
  | redis command => cases command <;> infer_instance
  | _ => dsimp only [oneByOne]; infer_instance

theorem rest_start (now : Nat) : Rest [] (SigState.start now) where
  pointer _ _ h := by cases h
  party _ _ h := by cases h
  redis _ _ := rfl
  fresh _ _ h := by cases h

/-- Alice calls Bob, the call is removed, and Alice calls Carol; some time later the pointers are as
they should be. -/
theorem pointers_follow_the_calls_demo : ∃ pool : BusyPool, run busyStep (.init (.start 0, .empty))
      (callsUp "c1" alice bob ++ removes "c1" ++ callsUp "c2" alice carol ++ [.outside 1000]) = some pool ∧
      active pool.store.1 alice = some "c2" ∧ active pool.store.1 bob = none ∧
      pool.store.2.stolen = false ∧ BusyFollows pool.store.1 := by
  obtain ⟨pool, hrun, halice, hbob, hidle, hnow⟩ := reaches busyStep (.init (.start 0, .empty))
    (callsUp "c1" alice bob ++ removes "c1" ++ callsUp "c2" alice carol ++ [.outside 1000])
    (fun pool => active pool.store.1 alice = some "c2" ∧ active pool.store.1 bob = none ∧
      pool.store.2.working = [] ∧ pool.store.1.now ≤ 300 * 1000) (by decide +kernel)
  obtain ⟨hstolen, hfollows⟩ := pointers_follow_the_calls (rest_start 0) (by decide +kernel) hrun
  exact ⟨pool, hrun, halice, hbob, hstolen,
    hfollows hidle fun _ _ _ => hnow.trans (Nat.le_add_left _ _)⟩

/-- Alice calls Carol while the call with Bob is still there; removing that one takes away Alice's
pointer to the call with Carol, in the map and in Redis. -/
theorem pointer_to_another_call_is_cleared : ∃ pool : BusyPool, run busyStep (.init (.start 0, .empty))
      (callsUp "c1" alice bob ++ callsUp "c2" alice carol ++ removes "c1") = some pool ∧
      pool.running.length = 0 ∧ pool.store.2.stolen = true ∧
      (calls pool.store.1 "c2").map (·.callerUserId) = some alice ∧ active pool.store.1 alice = none ∧
      pool.store.1.pointers.get pool.store.1.now (activeCallKey alice) = none :=
  reaches _ _ _ _ (by decide +kernel)

end

end ConstructServer.Signaling.Busy
