import ConstructServer.Library.Program
import ConstructServer.Library.RedisStream

/-!
# Calls that may fail

A statement of a service succeeds, fails without effect, or takes effect while its reply is lost; a
call that misses a reply it needs gives up with an error.
-/

namespace Calls

open Option

inductive Code
  | unauthenticated
  | permissionDenied
  | invalidArgument
  | failedPrecondition
  | notFound
  | alreadyExists
  | resourceExhausted
  | aborted
  | internal
  | unavailable
deriving DecidableEq

structure Status where
  code : Code
  message : String
deriving DecidableEq

/-- How a statement ends, and what it picks where the store leaves a choice. -/
structure Input (χ : Type) where
  outcome : Redis.Outcome
  choice : χ

variable {S : Type} {X : S → Type} {R : S → Type} {E E' α β χ ι σ κ : Type}

section

theorem bind_eq_ok {x : Except E α} {f : α → Except E β} {b : β} :
    x >>= f = .ok b ↔ ∃ a, x = .ok a ∧ f a = .ok b := by
  cases x with
  | ok a => exact ⟨fun h => ⟨a, rfl, h⟩, fun ⟨_, ha, hf⟩ => by cases ha; exact hf⟩
  | error e => exact ⟨nofun, fun ⟨_, ha, _⟩ => nomatch ha⟩

theorem mapError_eq_ok {x : Except E α} {f : E → E'} {a : α} : x.mapError f = .ok a ↔ x = .ok a := by
  cases x with
  | ok b => exact Iff.intro (fun h => by cases h; rfl) fun h => by cases h; rfl
  | error e => exact ⟨nofun, nofun⟩

end

/-- A statement that has its effect and answers, has its effect but does not answer, or fails. -/
def fallible (effect : (q : S) → χ → σ → Option (X q × σ)) (q : S) (input : Input χ) (s : σ) :
    Option (Option (X q) × σ) :=
  match input.outcome with
  | .ok => (effect q input.choice s).map fun (x, s') => (some x, s')
  | .lost => (effect q input.choice s).map fun (_, s') => (none, s')
  | .failed => some (none, s)

variable {effect : (q : S) → χ → σ → Option (X q × σ)} {q : S} {input : Input χ} {s s' : σ}

/-- What a statement did, seen from its reply. -/
inductive FallibleCase (effect : (q : S) → χ → σ → Option (X q × σ)) (q : S) (choice : χ) (s : σ) :
    Option (X q) → σ → Prop
  | failed : FallibleCase effect q choice s none s
  | effect {x : X q} {s' : σ} {r : Option (X q)} (heffect : effect q choice s = some (x, s'))
      (hr : ∀ y ∈ r, y = x) : FallibleCase effect q choice s r s'

variable {r : Option (X q)}

theorem fallible_case (h : fallible effect q input s = some (r, s')) :
    FallibleCase effect q input.choice s r s' := by
  unfold fallible at h
  split at h
  · obtain ⟨⟨x, t⟩, he, ht⟩ := map_eq_some_iff.mp h
    cases ht
    exact .effect he fun y hy => (some.inj hy).symm
  · obtain ⟨⟨x, t⟩, he, ht⟩ := map_eq_some_iff.mp h
    cases ht
    exact .effect he nofun
  · cases h
    exact .failed

theorem failed_or_effect (h : fallible effect q input s = some (r, s')) :
    s' = s ∧ r = none ∨ ∃ x, effect q input.choice s = some (x, s') ∧ ∀ y ∈ r, y = x := by
  cases fallible_case h with
  | failed => exact .inl ⟨rfl, rfl⟩
  | effect he hr => exact .inr ⟨_, he, hr⟩

theorem effect_of_reply {x : X q} (h : fallible effect q input s = some (some x, s')) :
    effect q input.choice s = some (x, s') := by
  cases fallible_case h with
  | effect he hr =>
    rw [hr x rfl]
    exact he

/-- A statement that succeeds. -/
theorem reply_of_ok (hok : input.outcome = .ok) (h : fallible effect q input s = some (r, s')) :
    ∃ x, r = some x ∧ effect q input.choice s = some (x, s') := by
  unfold fallible at h
  rw [hok] at h
  obtain ⟨⟨x, t⟩, he, ht⟩ := map_eq_some_iff.mp h
  cases ht
  exact ⟨x, rfl, he⟩

theorem eq_of_no_reply (hl : input.outcome ≠ .lost)
    (h : fallible effect q input s = some (none, s')) : s' = s := by
  unfold fallible at h
  split at h
  · obtain ⟨⟨x, t⟩, -, ht⟩ := map_eq_some_iff.mp h
    cases ht
  · rename_i hca
    exact absurd hca hl
  · cases h
    rfl

theorem eq_of_fallible {x : X q} {t : σ} (hl : input.outcome ≠ .failed)
    (h : fallible effect q input s = some (r, s'))
    (he : effect q input.choice s = some (x, t)) : s' = t := by
  unfold fallible at h
  rw [he] at h
  split at h
  · exact (congrArg Prod.snd (some.inj h)).symm
  · exact (congrArg Prod.snd (some.inj h)).symm
  · rename_i hf
    exact absurd hf hl

/-- The call at place `i` executes its next statements, which all succeed and pick the same. -/
def proceeds {κ ε : Type} (choice : χ) (i count : Nat) : List (Action (Input χ) κ ε) :=
  List.replicate count (.step i ⟨.ok, choice⟩)

/-- What happens outside of all calls leaves the log beside the store as it is. -/
def beside {γ ε : Type} (outside : ε → σ → σ) (e : ε) (w : σ × γ) : σ × γ := (outside e w.1, w.2)

section

variable {γ : Type} {note : Nat → (q : S) → X q → σ → γ → γ} {n : Nat} {choice : χ} {x : X q}
  {w w' : σ × γ}

/-- The statements with a log beside the store, which no statement reads. -/
def noted (effect : (q : S) → χ → σ → Option (X q × σ)) (note : Nat → (q : S) → X q → σ → γ → γ)
    (n : Nat) (q : S) (choice : χ) (w : σ × γ) : Option (X q × (σ × γ)) :=
  (effect q choice w.1).map fun (x, s) => (x, (s, note n q x w.1 w.2))

theorem noted_eq_some (h : noted effect note n q choice w = some (x, w')) :
    effect q choice w.1 = some (x, w'.1) ∧ w'.2 = note n q x w.1 w.2 := by
  obtain ⟨⟨y, s⟩, he, heq⟩ := map_eq_some_iff.mp h
  cases heq
  exact ⟨he, rfl⟩

end

/-- Programs that give up with an error. -/
abbrev Fallible (S : Type) (X : S → Type) (E α : Type) : Type :=
  ExceptT E (Program S fun q => Option (X q)) α

/-- A reply that is needed. -/
def orError (e : E) : Option α → Except E α
  | some x => .ok x
  | none => .error e

/-- A statement without whose reply the call gives up. -/
def demand (q : S) (e : E) : Fallible S X E (X q) :=
  ExceptT.mk (.ask q fun r => .done (orError e r))

/-- A statement without whose reply the call goes on with a default. -/
def demandOr (q : S) (default : X q) : Fallible S X E (X q) :=
  ExceptT.mk (.ask q fun r => .done (.ok (r.getD default)))

/-- The store that an error comes from. -/
inductive StoreError
  | redis
  | database
deriving DecidableEq

def redis (q : S) : Fallible S X StoreError (X q) := demand q .redis

def database (q : S) : Fallible S X StoreError (X q) := demand q .database

def ensure (c : Prop) [Decidable c] (e : E) : Fallible S X E Unit :=
  if c then pure () else throw e

/-- A check that has been made outside of the program. -/
def check (r : Except E α) : Fallible S X E α := ExceptT.mk (.done r)

/-- The errors of a part of the program, put into other words. -/
def mapErr (f : E → E') (p : Fallible S X E α) : Fallible S X E' α :=
  ExceptT.mk (p.run >>= fun r => .done (r.mapError f))

/-- A part of the program whose errors do not end it. -/
def attempt (p : Fallible S X E α) : Fallible S X E' (Except E α) :=
  ExceptT.mk (p.run >>= fun r => .done (.ok r))

/-- The answer of a call, from its result or its error. -/
def conclude (ok : α → β) (err : E → β) (p : Fallible S X E α) :
    Program S (fun q => Option (X q)) β :=
  p.run >>= fun r => .done (match r with
    | .ok a => ok a
    | .error e => err e)

section

variable {P : S → Prop}

theorem asks_then {p : ExceptT E (Program S R) α} {f : α → ExceptT E (Program S R) β}
    (hp : p.run.Asks P) (hf : ∀ a, (f a).run.Asks P) : (p >>= f).run.Asks P := by
  rw [ExceptT.run_bind]
  refine Program.asks_bind hp fun r => ?_
  cases r with
  | ok a => exact hf a
  | error e => trivial

theorem asks_demand {e : E} (h : P q) : (demand q e : Fallible S X E (X q)).run.Asks P :=
  ⟨h, fun _ => trivial⟩

theorem asks_demandOr {x : X q} (h : P q) : (demandOr q x : Fallible S X E (X q)).run.Asks P :=
  ⟨h, fun _ => trivial⟩

theorem asks_ensure {c : Prop} [Decidable c] {e : E} : (ensure c e : Fallible S X E Unit).run.Asks P := by
  unfold ensure
  split <;> trivial

theorem asks_next {e : E} {f : X q → Fallible S X E β} (h : P q) (hf : ∀ x, (f x).run.Asks P) :
    (demand q e >>= f).run.Asks P :=
  asks_then (asks_demand h) hf

theorem asks_guard {c : Prop} [Decidable c] {e : E} {f : Unit → Fallible S X E β}
    (hf : ∀ u, (f u).run.Asks P) :
    (ensure c e >>= f).run.Asks P :=
  asks_then asks_ensure hf

theorem asks_check {r : Except E α} : (check r : Fallible S X E α).run.Asks P := trivial

/-- What comes after a check may use that it has passed. -/
theorem asks_check_then {r : Except E α} {f : α → Fallible S X E β}
    (hf : ∀ a, r = .ok a → (f a).run.Asks P) : (check r >>= f).run.Asks P := by
  cases r with
  | ok a => exact hf a rfl
  | error e => trivial

variable {p : Fallible S X E α}

theorem asks_mapErr {f : E → E'} (hp : p.run.Asks P) : (mapErr f p).run.Asks P :=
  Program.asks_bind hp fun _ => trivial

theorem asks_attempt (hp : p.run.Asks P) : (attempt p : Fallible S X E' (Except E α)).run.Asks P :=
  Program.asks_bind hp fun _ => trivial

theorem asks_conclude {ok : α → β} {err : E → β} (hp : p.run.Asks P) : (conclude ok err p).Asks P :=
  Program.asks_bind hp fun _ => trivial

end

section

variable {exec : (q : S) → ι → σ → Option (R q × σ)}

theorem runs_andThen {p : ExceptT E (Program S R) α} {f : α → ExceptT E (Program S R) β} {r : Except E β} :
    Runs exec (p >>= f).run s r s' ↔ (∃ a s₁, Runs exec p.run s (.ok a) s₁ ∧ Runs exec (f a).run s₁ r s') ∨
        ∃ e, r = .error e ∧ Runs exec p.run s (.error e) s' := by
  rw [ExceptT.run_bind, runs_bind]
  constructor
  · rintro ⟨a | a, s₁, hp, hf⟩
    · obtain ⟨rfl, rfl⟩ := hf
      exact .inr ⟨a, rfl, hp⟩
    · exact .inl ⟨a, s₁, hp, hf⟩
  · rintro (⟨a, s₁, hp, hf⟩ | ⟨e, rfl, hp⟩)
    · exact ⟨.ok a, s₁, hp, hf⟩
    · exact ⟨.error e, s', hp, rfl, rfl⟩

end

section

variable {exec : (q : S) → ι → σ → Option (Option (X q) × σ)}

variable {e : E}

theorem runs_demand {r : Except E (X q)} : Runs exec (demand q e).run s r s' ↔
      ∃ input reply, exec q input s = some (reply, s') ∧ r = orError e reply := by
  constructor
  · rintro ⟨input, reply, t, he, rfl, rfl⟩
    exact ⟨input, reply, he, rfl⟩
  · rintro ⟨input, reply, he, rfl⟩
    exact ⟨input, reply, s', he, rfl, rfl⟩

theorem runs_ensure {c : Prop} [Decidable c] {r : Except E Unit} :
    Runs exec (ensure c e).run s r s' ↔ (r = if c then .ok () else .error e) ∧ s' = s := by
  unfold ensure
  split <;> exact Iff.rfl

variable {p : Fallible S X E α}

theorem runs_mapErr {f : E → E'} {r : Except E' α} :
    Runs exec (mapErr f p).run s r s' ↔ ∃ r', Runs exec p.run s r' s' ∧ r = r'.mapError f := by
  refine runs_bind.trans ⟨?_, ?_⟩
  · rintro ⟨r', t, hp, rfl, rfl⟩
    exact ⟨r', hp, rfl⟩
  · rintro ⟨r', hp, rfl⟩
    exact ⟨r', s', hp, rfl, rfl⟩

theorem runs_ok {f : α → Fallible S X E β} {a : α} {r : Except E β} {s₁ : σ}
    (hp : Runs exec p.run s (.ok a) s₁)
    (hf : Runs exec (f a).run s₁ r s') : Runs exec (p >>= f).run s r s' :=
  runs_andThen.mpr (.inl ⟨a, s₁, hp, hf⟩)

theorem runs_error {f : α → Fallible S X E β}
    (hp : Runs exec p.run s (.error e) s') : Runs exec (p >>= f).run s (.error e) s' :=
  runs_andThen.mpr (.inr ⟨e, rfl, hp⟩)

theorem runs_pass {c : Prop} [Decidable c] (hc : c) : Runs exec (ensure c e).run s (.ok ()) s :=
  runs_ensure.mpr ⟨(if_pos hc).symm, rfl⟩

variable {r : Except E α}

theorem runs_passed {a : α} (h : r = .ok a) : Runs exec (check r).run s (.ok a) s :=
  ⟨h.symm, rfl⟩

theorem runs_passed_mapError {f : E → E'} {a : α} (h : r = .ok a) :
    Runs exec (check (r.mapError f)).run s (.ok a) s :=
  ⟨h ▸ rfl, rfl⟩

theorem runs_attempt (hp : Runs exec p.run s r s') :
    Runs exec (attempt p : Fallible S X E' (Except E α)).run s (.ok r) s' :=
  runs_bind.mpr ⟨r, s', hp, rfl, rfl⟩

/-- A statement that succeeds. -/
theorem runs_effect {x : X q} (choice : χ) (h : effect q choice s = some (x, s')) :
    Runs (fallible effect) (demand q e).run s (.ok x) s' := by
  refine runs_demand.mpr ⟨⟨.ok, choice⟩, some x, ?_, rfl⟩
  show (effect q choice s).map _ = _
  rw [h]
  rfl

/-- A statement that takes effect without an answer. -/
theorem runs_lost {x : X q} (choice : χ) (h : effect q choice s = some (x, s')) :
    Runs (fallible effect) (demand q e).run s (.error e) s' := by
  refine runs_demand.mpr ⟨⟨.lost, choice⟩, none, ?_, rfl⟩
  show (effect q choice s).map _ = _
  rw [h]
  rfl

theorem runs_failure (choice : χ) : Runs (fallible effect) (demand q e).run s (.error e) s :=
  runs_demand.mpr ⟨⟨.failed, choice⟩, none, rfl, rfl⟩

end

section

variable {D : Discipline S ι σ κ} {exec : Nat → (q : S) → ι → σ → Option (R q × σ)} {n : Nat} {c : κ}

/-- What the rest of a call promises after a part of it. -/
def Continue (D : Discipline S ι σ κ) (exec : Nat → (q : S) → ι → σ → Option (R q × σ)) (n : Nat)
    (c : κ) (f : α → ExceptT E (Program S R) β) (post : Except E β → σ → Prop) :
    Except E α → σ → Prop
  | .ok a, s => D.Safe exec n c (f a).run post s
  | .error e, s => post (.error e) s

theorem safe_andThen {p : ExceptT E (Program S R) α} {f : α → ExceptT E (Program S R) β}
    {post : Except E β → σ → Prop} : D.Safe exec n c (p >>= f).run post s ↔
      D.Safe exec n c p.run (Continue D exec n c f post) s := by
  rw [ExceptT.run_bind, Discipline.safe_bind]
  constructor
  · intro h
    refine h.mono fun r s hr => ?_
    cases r with
    | ok a => exact hr
    | error e => exact hr
  · intro h
    refine h.mono fun r s hr => ?_
    cases r with
    | ok a => exact hr
    | error e => exact hr

/-- What holds after an error, and of a result. -/
def endsIn (err : σ → Prop) (post : α → σ → Prop) : Except E α → σ → Prop
  | .ok a, s => post a s
  | .error _, s => err s

/-- What holds of a result, if there is one. -/
abbrev onOk (post : α → σ → Prop) : Except E α → σ → Prop := endsIn (fun _ => True) post

/-- A part of a call leads to `mid`, from where the rest is safe. -/
theorem safe_then {p : ExceptT E (Program S R) α} {f : α → ExceptT E (Program S R) β}
    {err : σ → Prop} (mid : α → σ → Prop) {post : β → σ → Prop}
    (hp : D.Safe exec n c p.run (endsIn err mid) s)
    (hok : ∀ a s, mid a s → D.Safe exec n c (f a).run (endsIn err post) s) :
    D.Safe exec n c (p >>= f).run (endsIn err post) s := by
  refine safe_andThen.mpr (hp.mono fun r s hr => ?_)
  cases r with
  | ok a => exact hok a s hr
  | error e => exact hr

end

section

variable {D : Discipline S ι σ κ} {exec : Nat → (q : S) → ι → σ → Option (Option (X q) × σ)}
  {n : Nat} {c : κ}

variable {err : σ → Prop} {e : E}

theorem safe_ensure {cond : Prop} [Decidable cond] {post : Unit → σ → Prop}
    (hok : cond → post () s)
    (her : ¬cond → err s) : D.Safe exec n c (ensure cond e).run (endsIn err post) s := by
  unfold ensure
  split
  · rename_i hco
    exact hok hco
  · rename_i hco
    exact her hco

theorem safe_check {r : Except E α} {post : α → σ → Prop} (hok : ∀ a, r = .ok a → post a s) (her : err s) :
    D.Safe exec n c (check r : Fallible S X E α).run (endsIn err post) s := by
  cases r with
  | ok a => exact hok a rfl
  | error e => exact her

theorem safe_check_mapError {r : Except E α} {f : E → E'} {post : α → σ → Prop}
    (hok : ∀ a, r = .ok a → post a s) (her : err s) :
    D.Safe exec n c (check (r.mapError f) : Fallible S X E' α).run (endsIn err post) s := by
  cases r with
  | ok a => exact hok a rfl
  | error e => exact her

theorem safe_demand {post : Except E (X q) → σ → Prop}
    (h : ∀ s' input r s'', D.inv s' → D.rely n c s s' → D.care c q input s' →
      exec n q input s' = some (r, s'') → D.Keeps n c s' s'' ∧ post (orError e r) s'') :
    D.Safe exec n c (demand q e).run post s :=
  h

variable {post : X q → σ → Prop}

/-- A statement that changes nothing, of a call that knows `K`; the reply tells it more. -/
theorem safe_read (K : σ → Prop) (hst : ∀ {s s'}, K s → D.rely n c s s' → K s')
    (her : ∀ {s}, K s → err s) (hK : K s)
    (h : ∀ {input s r s'}, D.inv s → K s → exec n q input s = some (r, s') → s' = s ∧ ∀ x ∈ r, post x s) :
    D.Safe exec n c (demand q e).run (endsIn err post) s := by
  refine safe_demand fun s₁ input r s' hinv hre _ he => ?_
  have hK₁ := hst hK hre
  obtain ⟨rfl, hpo⟩ := h hinv hK₁ he
  refine ⟨.refl hinv, ?_⟩
  cases r with
  | none => exact her hK₁
  | some x => exact hpo x rfl

variable {p : Fallible S X E α}

/-- A part of a call whose statements change nothing. -/
theorem safe_reads {P : S → Prop} (K : σ → Prop)
    (hst : ∀ {s s'}, K s → D.rely n c s s' → K s') (her : ∀ {s}, K s → err s)
    (hqu : ∀ {q input s r s'}, P q → exec n q input s = some (r, s') → s' = s) (hp : p.run.Asks P)
    (hK : K s) :
    D.Safe exec n c p.run (endsIn err fun _ => K) s := by
  refine Discipline.safe_of_keeps K (fun _ _ => hst) ?_ ?_ hp hK
  · intro q input s r s' hq hinv hK _ he
    obtain rfl := hqu hq he
    exact ⟨.refl hinv, hK⟩
  · intro r s hK
    cases r with
    | ok _ => exact hK
    | error _ => exact her hK

/-- A statement of a call that knows `L` until then. -/
theorem safe_effect {effect : Nat → (q : S) → χ → σ → Option (X q × σ)} {D : Discipline S (Input χ) σ κ}
    (L : σ → Prop) (hst : ∀ {s s'}, L s → D.rely n c s s' → L s') (hL : L s) (hf : ∀ {s}, L s → err s)
    (h : ∀ {input s x s'}, D.inv s → L s → D.care c q input s →
      effect n q input.choice s = some (x, s') → D.Keeps n c s s' ∧ err s' ∧ post x s') :
    D.Safe (fun n => fallible (effect n)) n c (demand q e).run (endsIn err post) s := by
  refine safe_demand fun s₁ input r s' hinv hre hca he => ?_
  have hL₁ := hst hL hre
  cases fallible_case he with
  | failed => exact ⟨.refl hinv, hf hL₁⟩
  | effect hef hr =>
    obtain ⟨hke, her, hpo⟩ := h hinv hL₁ hca hef
    refine ⟨hke, ?_⟩
    cases r with
    | none => exact her
    | some x =>
      cases hr x rfl
      exact hpo

/-- A statement of a call that runs alone. -/
theorem safe_alone {effect : Nat → (q : S) → χ → σ → Option (X q × σ)} (hf : err s)
    (h : ∀ {choice x s'}, effect n q choice s = some (x, s') → err s' ∧ post x s') :
    (Discipline.alone S (Input χ) σ κ).Safe (fun n => fallible (effect n)) n c (demand q e).run
      (endsIn err post) s := by
  refine safe_demand fun s₁ input r s' _ hre _ hexe => ?_
  cases hre
  refine ⟨Discipline.keeps_alone, ?_⟩
  cases fallible_case hexe with
  | failed => exact hf
  | effect he hr =>
    cases r with
    | none => exact (h he).1
    | some x =>
      cases hr x rfl
      exact (h he).2

/-- Whatever the part ends with, the call goes on. -/
theorem safe_attempt {post : Except E α → σ → Prop} (h : D.Safe exec n c p.run post s) :
    D.Safe exec n c (attempt p : Fallible S X E' (Except E α)).run (endsIn err post) s :=
  Discipline.safe_bind.mpr (h.mono fun _ _ hr => hr)

/-- A statement of a call that runs alone and goes on without the reply. -/
theorem safe_attempt_alone {effect : Nat → (q : S) → χ → σ → Option (X q × σ)}
    {post : Except E (X q) → σ → Prop} (hf : ∀ e, post (.error e) s)
    (h : ∀ {choice x s'}, effect n q choice s = some (x, s') → (∀ e, post (.error e) s') ∧ post (.ok x) s') :
    (Discipline.alone S (Input χ) σ κ).Safe (fun n => fallible (effect n)) n c
      (attempt (demand q e) : Fallible S X E' (Except E (X q))).run (endsIn err post) s := by
  refine safe_attempt ((safe_alone hf h).mono fun r s hr => ?_)
  cases r with
  | ok x => exact hr
  | error e => exact hr e

theorem safe_mapErr {f : E → E'} {post : α → σ → Prop}
    (h : D.Safe exec n c p.run (endsIn err post) s) : D.Safe exec n c (mapErr f p).run (endsIn err post) s := by
  refine Discipline.safe_bind.mpr (h.mono fun r s hr => ?_)
  cases r with
  | ok a => exact hr
  | error e => exact hr

theorem safe_conclude {ok : α → β} {err : E → β} {post : β → σ → Prop}
    (h : D.Safe exec n c p.run (fun r s => match r with
      | .ok a => post (ok a) s
      | .error e => post (err e) s) s) : D.Safe exec n c (conclude ok err p) post s := by
  refine Discipline.safe_bind.mpr (h.mono fun r s hr => ?_)
  cases r with
  | ok a => exact hr
  | error e => exact hr

end

end Calls
