import ConstructServer.Library.Machine

/-!
# Programs that ask for statements, alone and side by side

A program asks for one statement after the other, each of which a store executes at once, and goes
on with the reply. Alone it runs from its first statement to its result; side by side with others,
any of them executes its next statement at any time. A program that keeps its promises whatever the
others do within theirs is safe, and a pool of safe programs keeps its invariant.
-/

namespace Calls

open Machine List Option

variable {S : Type} {R : S → Type} {α β ι σ κ ε : Type}

inductive Program (S : Type) (R : S → Type) (α : Type)
  | done (result : α)
  | ask (statement : S) (next : R statement → Program S R α)

namespace Program

def bind : Program S R α → (α → Program S R β) → Program S R β
  | .done a, f => f a
  | .ask q next, f => .ask q fun r => (next r).bind f

instance : Monad (Program S R) where
  pure := .done
  bind := bind

theorem bind_eq (p : Program S R α) (f : α → Program S R β) : p >>= f = p.bind f := rfl

theorem bind_done (p : Program S R α) : p.bind .done = p := by
  induction p with
  | done a => rfl
  | ask q next ih => exact congrArg (ask q) (funext ih)

theorem bind_bind {γ : Type} (p : Program S R α) (f : α → Program S R β) (g : β → Program S R γ) :
    (p.bind f).bind g = p.bind fun a => (f a).bind g := by
  induction p with
  | done a => rfl
  | ask q next ih => exact congrArg (ask q) (funext ih)

instance lawfulMonad : LawfulMonad (Program S R) :=
  LawfulMonad.mk' (Program S R) bind_done (fun _ _ => rfl) bind_bind

/-- Every statement that the program may ask for satisfies `P`. -/
def Asks (P : S → Prop) : Program S R α → Prop
  | .done _ => True
  | .ask q next => P q ∧ ∀ r, (next r).Asks P

theorem asks_bind {P : S → Prop} {p : Program S R α} {f : α → Program S R β} (hp : p.Asks P)
    (hf : ∀ a, (f a).Asks P) : (p >>= f).Asks P := by
  rw [bind_eq]
  induction p with
  | done a => exact hf a
  | ask q next ih => exact ⟨hp.1, fun r => ih r (hp.2 r)⟩

theorem Asks.mono {P Q : S → Prop} (hPQ : ∀ q, P q → Q q) {p : Program S R α} (hp : p.Asks P) :
    p.Asks Q := by
  induction p with
  | done a => trivial
  | ask q next ih => exact ⟨hPQ q hp.1, fun r => ih r (hp.2 r)⟩

theorem asks_true (p : Program S R α) : p.Asks fun _ => True := by
  induction p with
  | done a => trivial
  | ask q next ih => exact ⟨trivial, ih⟩

end Program

/-! ### Programs that run alone -/

section

variable (exec : (q : S) → ι → σ → Option (R q × σ))

/-- The environment chooses an input for each statement, such as whether it fails. -/
def Runs : Program S R α → σ → α → σ → Prop
  | .done b, s, a, s' => a = b ∧ s' = s
  | .ask q next, s, a, s' =>
    ∃ input r s₁, exec q input s = some (r, s₁) ∧ Runs (next r) s₁ a s'

variable {exec} {s s' : σ} {a : α} {b : β}

theorem runs_bind {p : Program S R α} {f : α → Program S R β} :
    Runs exec (p >>= f) s b s' ↔ ∃ a s₁, Runs exec p s a s₁ ∧ Runs exec (f a) s₁ b s' := by
  rw [Program.bind_eq]
  induction p generalizing s with
  | done a =>
    constructor
    · intro h
      exact ⟨a, s, ⟨rfl, rfl⟩, h⟩
    · rintro ⟨a', s₁, ⟨rfl, rfl⟩, h⟩
      exact h
  | ask q next ih =>
    constructor
    · rintro ⟨input, r, s₁, he, h⟩
      obtain ⟨a, s₂, hn, hf⟩ := (ih r).mp h
      exact ⟨a, s₂, ⟨input, r, s₁, he, hn⟩, hf⟩
    · rintro ⟨a, s₂, ⟨input, r, s₁, he, hn⟩, hf⟩
      exact ⟨input, r, s₁, he, (ih r).mpr ⟨a, s₂, hn, hf⟩⟩

/-- What the statements of a program keep, a run of it keeps. -/
theorem runs_keeps {P : S → Prop} {K : σ → Prop} {p : Program S R α} (hp : p.Asks P)
    (hk : ∀ {q input s r s'}, P q → K s → exec q input s = some (r, s') → K s') (hs : K s)
    (h : Runs exec p s a s') : K s' := by
  induction p generalizing s with
  | done b => exact h.2 ▸ hs
  | ask q next ih =>
    obtain ⟨input, r, s₁, he, h⟩ := h
    exact ih r (hp.2 r) (hk hp.1 hs he) h

/-- A program runs to its end where every statement can be executed. -/
theorem exists_runs {K : σ → Prop} (p : Program S R α)
    (hk : ∀ q s, K s → ∃ input r s', exec q input s = some (r, s') ∧ K s') (hs : K s) :
    ∃ a s', Runs exec p s a s' := by
  induction p generalizing s with
  | done b => exact ⟨b, s, rfl, rfl⟩
  | ask q next ih =>
    obtain ⟨input, r, s₁, he, hK⟩ := hk q s hs
    obtain ⟨a, s', h⟩ := ih r hK
    exact ⟨a, s', input, r, s₁, he, h⟩

def execute (exec : (q : S) → ι → σ → Option (R q × σ)) : Program S R α → List ι → σ → Option (α × σ)
  | .done a, _, s => some (a, s)
  | .ask _ _, [], _ => none
  | .ask q next, input :: inputs, s => match exec q input s with
    | some (r, s') => execute exec (next r) inputs s'
    | none => none

theorem runs_of_execute {p : Program S R α} {inputs : List ι}
    (h : execute exec p inputs s = some (a, s')) : Runs exec p s a s' := by
  induction p generalizing inputs s with
  | done b =>
    cases h
    exact ⟨rfl, rfl⟩
  | ask q next ih =>
    cases inputs with
    | nil => cases h
    | cons input inputs =>
      simp only [execute] at h
      split at h
      · rename_i r t he
        exact ⟨input, r, t, he, ih r h⟩
      · cases h

end

/-! ### Programs that run side by side -/

/-- A call that has not returned yet, with the number of its session. -/
structure Running (S : Type) (R : S → Type) (α κ : Type) where
  session : Nat
  call : κ
  program : Program S R α

structure Pool (S : Type) (R : S → Type) (α κ σ : Type) where
  store : σ
  sessions : Nat
  running : List (Running S R α κ)

def Pool.init (store : σ) : Pool S R α κ σ := ⟨store, 0, []⟩

/-- A call begins or executes its next statement, or something happens outside of all calls. -/
inductive Action (ι κ ε : Type)
  | start (call : κ)
  | step (i : Nat) (input : ι)
  | outside (e : ε)

section

variable (exec : Nat → (q : S) → ι → σ → Option (R q × σ)) (body : κ → σ → Program S R α)
  (finish : Nat → κ → α → σ → σ) (outside : ε → σ → σ)

/-- A call whose program has a result returns at once. -/
def settle (session : Nat) (call : κ) (store : σ) :
    Program S R α → σ × Option (Running S R α κ)
  | .done a => (finish session call a store, none)
  | .ask q next => (store, some ⟨session, call, .ask q next⟩)

def Pool.step (pool : Pool S R α κ σ) : Action ι κ ε → Option (Pool S R α κ σ)
  | .start call =>
    let (store, next) := settle finish pool.sessions call pool.store (body call pool.store)
    some ⟨store, pool.sessions + 1, pool.running ++ next.toList⟩
  | .step i input =>
    match pool.running[i]? with
    | some ⟨session, call, .ask q next⟩ =>
      (exec session q input pool.store).map fun (r, store) =>
        let (store, next) := settle finish session call store (next r)
        ⟨store, pool.sessions, Machine.replace pool.running i next⟩
    | _ => none
  | .outside e => some { pool with store := outside e pool.store }

end

/-- What every call promises: the invariant, what the store knows of a session that has not begun,
what a call relies on while it waits, when it may begin, which calls may run at the same time, and
the statements that a call may execute. -/
structure Discipline (S ι σ κ : Type) where
  inv : σ → Prop
  fresh : Nat → σ → Prop
  rely : Nat → κ → σ → σ → Prop
  begins : κ → σ → Prop
  compat : κ → κ → Prop
  care : κ → S → ι → σ → Prop
  refl : ∀ n c s, rely n c s s
  trans : ∀ {n c s t u}, rely n c s t → rely n c t u → rely n c s u

namespace Discipline

variable (D : Discipline S ι σ κ) (exec : Nat → (q : S) → ι → σ → Option (R q × σ))

/-- The invariant holds, the sessions to come are fresh, and so is what the calls rely on that may
run beside this one. -/
structure Keeps (n : Nat) (c : κ) (s s' : σ) : Prop where
  inv : D.inv s'
  fresh : ∀ n', n < n' → D.fresh n' s → D.fresh n' s'
  rely : ∀ n' c', n' ≠ n → D.compat c c' → D.rely n' c' s s'

/-- Whenever the call executes a statement, it keeps its promises, and it ends with `post`. -/
def Safe (n : Nat) (c : κ) : Program S R α → (α → σ → Prop) → σ → Prop
  | .done a, post, s => post a s
  | .ask q next, post, s => ∀ s' input r s'', D.inv s' → D.rely n c s s' → D.care c q input s' →
    exec n q input s' = some (r, s'') → D.Keeps n c s' s'' ∧ Safe n c (next r) post s''

variable {D exec} {n : Nat} {c : κ} {s s' : σ}

variable {p : Program S R α}

theorem safe_bind {f : α → Program S R β} {post : β → σ → Prop} :
    D.Safe exec n c (p >>= f) post s ↔ D.Safe exec n c p (fun a s => D.Safe exec n c (f a) post s) s := by
  rw [Program.bind_eq]
  induction p generalizing s with
  | done a => exact Iff.rfl
  | ask q next ih =>
    constructor
    · intro h s' input r s'' hinv hre hca he
      obtain ⟨hke, hn⟩ := h s' input r s'' hinv hre hca he
      exact ⟨hke, (ih r).mp hn⟩
    · intro h s' input r s'' hinv hre hca he
      obtain ⟨hke, hn⟩ := h s' input r s'' hinv hre hca he
      exact ⟨hke, (ih r).mpr hn⟩

theorem Safe.mono {post post' : α → σ → Prop} (h : D.Safe exec n c p post s)
    (hpo : ∀ a s, post a s → post' a s) : D.Safe exec n c p post' s := by
  induction p generalizing s with
  | done a => exact hpo a s h
  | ask q next ih =>
    intro s' input r s'' hinv hre hca he
    obtain ⟨hke, hn⟩ := h s' input r s'' hinv hre hca he
    exact ⟨hke, ih r hn⟩

theorem Safe.andThen {f : α → Program S R β} (mid : α → σ → Prop) {post : β → σ → Prop}
    (hp : D.Safe exec n c p mid s) (hf : ∀ a s, mid a s → D.Safe exec n c (f a) post s) :
    D.Safe exec n c (p >>= f) post s :=
  safe_bind.mpr (hp.mono hf)

/-- A call that waits stays safe while the others keep to what it relies on. -/
theorem Safe.wait {q : S} {next : R q → Program S R α} {post : α → σ → Prop}
    (h : D.Safe exec n c (.ask q next) post s)
    (hre : D.rely n c s s') : D.Safe exec n c (.ask q next) post s' :=
  fun t input r t' hinv hr' => h t input r t' hinv (D.trans hre hr')

/-- A program is safe when each statement that it may ask for keeps the promises, whatever it does
with the replies; `L` is what the call knows in the meantime. -/
theorem safe_of_keeps {P : S → Prop} {post : α → σ → Prop} (L : σ → Prop)
    (hst : ∀ s s', L s → D.rely n c s s' → L s')
    (hke : ∀ q input s r s', P q → D.inv s → L s → D.care c q input s →
      exec n q input s = some (r, s') → D.Keeps n c s s' ∧ L s')
    (hpo : ∀ a s, L s → post a s) (hp : p.Asks P) (hL : L s) : D.Safe exec n c p post s := by
  induction p generalizing s with
  | done a => exact hpo a s hL
  | ask q next ih =>
    intro s' input r s'' hinv hre hca he
    obtain ⟨hk, hL'⟩ := hke q input s' r s'' hp.1 hinv (hst s s' hL hre) hca he
    exact ⟨hk, ih r (hp.2 r) hL'⟩

theorem Keeps.trans {t : σ} (h : D.Keeps n c s s') (h' : D.Keeps n c s' t) : D.Keeps n c s t :=
  ⟨h'.inv, fun n' hn' hf => h'.fresh n' hn' (h.fresh n' hn' hf),
    fun n' c' hn' hc' => D.trans (h.rely n' c' hn' hc') (h'.rely n' c' hn' hc')⟩

theorem Keeps.refl (hinv : D.inv s) : D.Keeps n c s s :=
  ⟨hinv, fun _ _ => id, fun n' c' _ _ => D.refl n' c' s⟩

section

variable (S ι σ κ) in
/-- Without interference, and without promises to anybody. -/
def alone : Discipline S ι σ κ where
  inv _ := True
  fresh _ _ := True
  rely _ _ s s' := s' = s
  begins _ _ := True
  compat _ _ := False
  care _ _ _ _ := True
  refl _ _ _ := rfl
  trans h h' := h'.trans h

theorem keeps_alone : (alone S ι σ κ).Keeps n c s s' :=
  ⟨trivial, fun _ _ _ => trivial, fun _ _ _ => False.elim⟩

/-- What is safe without interference holds after every run. -/
theorem Safe.of_runs {p : Program S R α} {post : α → σ → Prop} {a : α}
    (h : (alone S ι σ κ).Safe exec n c p post s) (hru : Runs (exec n) p s a s') : post a s' := by
  induction p generalizing s with
  | done b =>
    obtain ⟨rfl, rfl⟩ := hru
    exact h
  | ask q next ih =>
    obtain ⟨input, r, t, he, hn⟩ := hru
    exact ih r (h s input r t trivial rfl trivial he).2 hn

end

section

variable (D) (body : κ → σ → Program S R α) (finish : Nat → κ → α → σ → σ) (outside : ε → σ → σ)

def Careful (pool : Pool S R α κ σ) : Action ι κ ε → Prop
  | .start call => D.begins call pool.store ∧
    ∀ p ∈ pool.running, D.compat p.call call ∧ D.compat call p.call
  | .step i input => ∀ p ∈ pool.running[i]?, match p.program with
    | .ask q _ => D.care p.call q input pool.store
    | .done _ => True
  | .outside _ => True

/-- The end of a call keeps its promises. -/
def Ends (n : Nat) (c : κ) (a : α) (s : σ) : Prop := D.inv s → D.Keeps n c s (finish n c a s)

instance decidableCareful [∀ c s, Decidable (D.begins c s)] [∀ c c', Decidable (D.compat c c')]
    [∀ c q input s, Decidable (D.care c q input s)] (pool : Pool S R α κ σ) (a : Action ι κ ε) :
    Decidable (D.Careful pool a) :=
  match a with
  | .start call => inferInstanceAs (Decidable (D.begins call pool.store ∧
      ∀ p ∈ pool.running, D.compat p.call call ∧ D.compat call p.call))
  | .step i input =>
    match h : pool.running[i]? with
    | none => isTrue fun p hp => by rw [h] at hp; cases hp
    | some ⟨_, c, .ask q _⟩ =>
      decidable_of_iff (D.care c q input pool.store)
        ⟨fun hcare p hp => by rw [h] at hp; cases hp; exact hcare, fun hcare => hcare _ h⟩
    | some ⟨_, _, .done _⟩ => isTrue fun p hp => by rw [h] at hp; cases hp; trivial
  | .outside _ => isTrue trivial

/-- Two sessions that may run side by side. -/
def Apart (p p' : Running S R α κ) : Prop :=
  p.session ≠ p'.session ∧ D.compat p.call p'.call ∧ D.compat p'.call p.call

/-- The calls keep their promises from their beginning to their end. -/
abbrev SafeBodies (exec : Nat → (q : S) → ι → σ → Option (R q × σ)) (body : κ → σ → Program S R α)
    (finish : Nat → κ → α → σ → σ) : Prop :=
  ∀ n c s, D.inv s → D.fresh n s → D.begins c s → D.Safe exec n c (body c s) (D.Ends finish n c) s

/-- What happens beside the calls breaks no promise. -/
abbrev Bears (outside : ε → σ → σ) : Prop :=
  ∀ e s, D.inv s → D.inv (outside e s) ∧ (∀ n, D.fresh n s → D.fresh n (outside e s)) ∧
    ∀ n c, D.rely n c s (outside e s)

variable (exec) in
structure PoolInvariant (pool : Pool S R α κ σ) : Prop where
  inv : D.inv pool.store
  fresh : ∀ n, pool.sessions ≤ n → D.fresh n pool.store
  sessions : ∀ p ∈ pool.running, p.session < pool.sessions
  apart : pool.running.Pairwise D.Apart
  safe : ∀ p ∈ pool.running, (∃ q next, p.program = .ask q next) ∧
    D.Safe exec p.session p.call p.program (D.Ends finish p.session p.call) pool.store

variable {D body finish outside} {pool pool' : Pool S R α κ σ} {p p' : Running S R α κ}

theorem Apart.symm (h : D.Apart p p') : D.Apart p' p := ⟨h.1.symm, h.2.2, h.2.1⟩

theorem safe_settle {program : Program S R α} (hinv : D.inv s)
    (hp : D.Safe exec n c program (D.Ends finish n c) s) : D.Keeps n c s (settle finish n c s program).1 ∧
      ∀ p ∈ (settle finish n c s program).2, p.session = n ∧ p.call = c ∧
        (∃ q next, p.program = .ask q next) ∧ D.Safe exec p.session p.call p.program
          (D.Ends finish p.session p.call) (settle finish n c s program).1 := by
  cases program with
  | done a => exact ⟨hp hinv, nofun⟩
  | ask q next =>
    refine ⟨.refl hinv, ?_⟩
    rintro p ⟨⟩
    exact ⟨rfl, rfl, ⟨q, next, rfl⟩, hp⟩

/-- The other calls have not noticed anything that they did not rely on. -/
theorem PoolInvariant.waits (h : D.PoolInvariant exec finish pool) (hp : p ∈ pool.running)
    (hre : D.rely p.session p.call pool.store s) :
    D.Safe exec p.session p.call p.program (D.Ends finish p.session p.call) s := by
  obtain ⟨⟨q, next, hpr⟩, hsa⟩ := h.safe p hp
  rw [hpr] at hsa ⊢
  exact hsa.wait hre

theorem PoolInvariant.start (h : D.PoolInvariant exec finish pool)
    (hco : ∀ p ∈ pool.running, D.compat p.call c ∧ D.compat c p.call) {program : Program S R α}
    (hp : D.Safe exec pool.sessions c program (D.Ends finish pool.sessions c) pool.store) :
    D.PoolInvariant exec finish ⟨(settle finish pool.sessions c pool.store program).1, pool.sessions + 1,
      pool.running ++ (settle finish pool.sessions c pool.store program).2.toList⟩ := by
  obtain ⟨hke, hne⟩ := safe_settle h.inv hp
  refine ⟨hke.inv, fun n hn => ?_, fun p hp => ?_, ?_, fun p hp => ?_⟩
  · exact hke.fresh n hn (h.fresh n (Nat.le_of_succ_le hn))
  · rcases mem_append.mp hp with hp | hp
    · exact Nat.lt_succ_of_lt (h.sessions p hp)
    · rw [(hne p (mem_toList.mp hp)).1]
      exact Nat.lt_succ_self _
  · refine pairwise_append.mpr ⟨h.apart, ?_, fun p hp p' hp' => ?_⟩
    · cases (settle finish pool.sessions c pool.store program).2 with
      | none => exact List.Pairwise.nil
      | some q => exact pairwise_singleton _ _
    · obtain ⟨hse, hca, -⟩ := hne p' (mem_toList.mp hp')
      rw [Apart, hse, hca]
      exact ⟨Nat.ne_of_lt (h.sessions p hp), hco p hp⟩
  · rcases mem_append.mp hp with hp | hp
    · have hre := hke.rely _ _ (Nat.ne_of_lt (h.sessions p hp)) (hco p hp).2
      exact ⟨(h.safe p hp).1, h.waits hp hre⟩
    · exact (hne p (mem_toList.mp hp)).2.2

theorem PoolInvariant.advance (h : D.PoolInvariant exec finish pool) {i : Nat} {input : ι} {q : S}
    {next : R q → Program S R α} {r : R q} (hi : pool.running[i]? = some ⟨n, c, .ask q next⟩)
    (hca : D.care c q input pool.store) (he : exec n q input pool.store = some (r, s)) :
    D.PoolInvariant exec finish ⟨(settle finish n c s (next r)).1, pool.sessions,
      Machine.replace pool.running i (settle finish n c s (next r)).2⟩ := by
  obtain ⟨hil, hg⟩ := List.getElem?_eq_some_iff.mp hi
  have hm := mem_of_getElem? hi
  obtain ⟨hk, hr⟩ :=
    (h.safe _ hm).2 pool.store input r s h.inv (D.refl n c _) hca he
  obtain ⟨hk', hn⟩ := safe_settle hk.inv hr
  have hke := hk.trans hk'
  -- The pool is split at the call that steps.
  have hsp : pool.running =
      pool.running.take i ++ ⟨n, c, .ask q next⟩ :: pool.running.drop (i + 1) := by
    conv_lhs => rw [← take_append_drop i pool.running, drop_eq_getElem_cons hil, hg]
  obtain ⟨hta, hdr, hcr⟩ := pairwise_append.mp (hsp ▸ h.apart)
  obtain ⟨hh, hdr⟩ := pairwise_cons.mp hdr
  have hot : ∀ p ∈ pool.running.take i ++ pool.running.drop (i + 1), ∀ program,
      D.Apart ⟨n, c, program⟩ p := by
    intro p hp program
    rcases mem_append.mp hp with hp | hp
    · exact (hcr p hp _ mem_cons_self).symm
    · exact hh p hp
  have hne : ∀ p ∈ (settle finish n c s (next r)).2.toList, ∃ program, p = ⟨n, c, program⟩ := by
    intro p hp
    obtain ⟨hse, hcal, -⟩ := hn p (mem_toList.mp hp)
    cases p
    cases hse
    cases hcal
    exact ⟨_, rfl⟩
  refine ⟨hke.inv, fun n' hn' => ?_, fun p hp => ?_, ?_, fun p hp => ?_⟩
  · exact hke.fresh n' (Nat.lt_of_lt_of_le (h.sessions _ hm) hn') (h.fresh n' hn')
  · rcases mem_or_mem_of_replace hp with hp | hp
    · exact h.sessions p hp
    · rw [(hn p hp).1]
      exact h.sessions _ hm
  · simp only [Machine.replace, append_assoc]
    refine pairwise_append.mpr ⟨hta, pairwise_append.mpr ⟨?_, hdr, ?_⟩, ?_⟩
    · cases (settle finish n c s (next r)).2 with
      | none => exact List.Pairwise.nil
      | some p => exact pairwise_singleton _ _
    · intro p hp p' hp'
      obtain ⟨program, rfl⟩ := hne p hp
      exact hot p' (mem_append_right _ hp') program
    · intro p hp p' hp'
      rcases mem_append.mp hp' with hp' | hp'
      · obtain ⟨program, rfl⟩ := hne p' hp'
        exact (hot p (mem_append_left _ hp) program).symm
      · exact hcr p hp p' (mem_cons_of_mem _ hp')
  · rcases mem_replace_none_or_mem hp with hp | hp
    · have hsi : p ∈ pool.running.take i ++ pool.running.drop (i + 1) := by
        simpa [Machine.replace] using hp
      have hpo := mem_of_mem_replace_none hp
      obtain ⟨hse, hco, -⟩ := hot p hsi (.ask q next)
      exact ⟨(h.safe p hpo).1, h.waits hpo (hke.rely _ _ hse.symm hco)⟩
    · exact (hn p hp).2.2

theorem PoolInvariant.step (h : D.PoolInvariant exec finish pool) {a : Action ι κ ε}
    (hbo : D.SafeBodies exec body finish) (hou : D.Bears outside) (hca : D.Careful pool a)
    (hst : pool.step exec body finish outside a = some pool') :
    D.PoolInvariant exec finish pool' := by
  cases a with
  | start call =>
    cases hst
    obtain ⟨hbe, hco⟩ := hca
    exact h.start hco (hbo _ call _ h.inv (h.fresh _ (Nat.le_refl _)) hbe)
  | step i input =>
    simp only [Pool.step] at hst
    split at hst
    · rename_i n call q next hi
      obtain ⟨⟨r, s⟩, he, rfl⟩ := map_eq_some_iff.mp hst
      exact h.advance hi (hca _ hi) he
    · cases hst
  | outside e =>
    cases hst
    obtain ⟨hinv, hf, hre⟩ := hou e pool.store h.inv
    exact ⟨hinv, fun n hn => hf n (h.fresh n hn), h.sessions, h.apart,
      fun p hp => ⟨(h.safe p hp).1, h.waits hp (hre p.session p.call)⟩⟩

/-- **A pool of safe calls keeps its invariant.** -/
theorem run_invariant {as : List (Action ι κ ε)} (hbo : D.SafeBodies exec body finish)
    (hou : D.Bears outside) (hin : D.inv s) (hf : ∀ n, D.fresh n s)
    (hca : Along (Pool.step exec body finish outside) D.Careful (.init s) as)
    (hru : run (Pool.step exec body finish outside) (.init s) as = some pool) : D.inv pool.store :=
  (Machine.run_invariant (P := D.PoolInvariant exec finish)
    (fun h hca hst => h.step hbo hou hca hst)
    ⟨hin, fun n _ => hf n, by rintro _ ⟨⟩, .nil, by rintro _ ⟨⟩⟩ hca hru).inv

/-- An invariant alone: no call relies on anything, and any calls may overlap. -/
def plain (inv : σ → Prop) : Discipline S ι σ κ where
  inv := inv
  fresh _ _ := True
  rely _ _ _ _ := True
  begins _ _ := True
  compat _ _ := True
  care _ _ _ _ := True
  refl _ _ _ := trivial
  trans _ _ := trivial

/-- What every statement keeps that some call may ask for holds after every run. -/
theorem run_plain {inv : σ → Prop} {P : κ → S → Prop} {as : List (Action ι κ ε)}
    (hask : ∀ c s, (body c s).Asks (P c))
    (hst : ∀ n c q input s r s', P c q → inv s → exec n q input s = some (r, s') → inv s')
    (hfi : ∀ n c a s, inv s → inv (finish n c a s)) (hou : ∀ e s, inv s → inv (outside e s)) (hin : inv s)
    (hru : run (Pool.step exec body finish outside) (.init s) as = some pool) : inv pool.store := by
  have hke : ∀ {n c s s'}, inv s' → (plain inv : Discipline S ι σ κ).Keeps n c s s' :=
    fun h => ⟨h, fun _ _ _ => trivial, fun _ _ _ _ => trivial⟩
  refine run_invariant (D := plain inv) (fun n c s _ _ _ => ?_) ?_ hin (fun _ => trivial)
    (along_of_forall fun pool a => ?_) hru
  · refine safe_of_keeps (fun _ => True) (fun _ _ _ _ => trivial) (fun q input s r s' hq hs _ _ he => ?_)
      (fun a s _ hs => hke (hfi n c a s hs)) (hask c s) trivial
    exact ⟨hke (hst n c q input s r s' hq hs he), trivial⟩
  · exact fun e s hs => ⟨hou e s hs, fun _ _ => trivial, fun _ _ => trivial⟩
  · cases a with
    | start call => exact ⟨trivial, fun _ _ => ⟨trivial, trivial⟩⟩
    | step i input =>
      intro p _
      split <;> trivial
    | outside e => trivial

end

end Discipline

end Calls
