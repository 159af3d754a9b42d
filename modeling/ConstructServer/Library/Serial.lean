import ConstructServer.Library.Service

/-!
# Calls that come one after the other

Of the calls of a service, those of one kind come one after the other, while all others go on beside
them and do to the store only what the first ones can bear. What holds between two calls of the kind
then only has to be shown of one call at a time.
-/

namespace Calls

open Machine List

variable {S : Type} {R : S → Type} {α ι σ κ ε : Type}

structure Serial (S ι σ κ : Type) where
  watched : κ → Prop
  env : σ → σ → Prop
  always : σ → Prop
  begins : κ → σ → Prop
  care : κ → S → ι → σ → Prop
  refl : ∀ s, env s s
  trans : ∀ {s t u}, env s t → env t u → env s u

namespace Serial

/-- The calls under one key come one after the other, and take care of their statements. -/
@[reducible] def ofKey {δ : Type} (key : κ → δ) (k : δ) (env : σ → σ → Prop) (always : σ → Prop)
    (care : S → ι → σ → Prop) (refl : ∀ s, env s s)
    (trans : ∀ {s t u}, env s t → env t u → env s u) : Serial S ι σ κ where
  watched c := key c = k
  env := env
  always := always
  begins _ _ := True
  care c q input s := key c = k → care q input s
  refl := refl
  trans := trans

@[reducible] def discipline (L : Serial S ι σ κ) : Discipline S ι σ κ where
  inv := L.always
  fresh _ _ := True
  rely _ c s s' := L.watched c → L.env s s'
  begins := L.begins
  compat c c' := ¬ (L.watched c ∧ L.watched c')
  care := L.care
  refl _ _ s _ := L.refl s
  trans h h' hc := L.trans (h hc) (h' hc)

variable {L : Serial S ι σ κ} {exec : Nat → (q : S) → ι → σ → Option (R q × σ)}
  {body : κ → σ → Program S R α} {finish : Nat → κ → α → σ → σ} {outside : ε → σ → σ} {n : Nat} {c : κ}
  {s s' : σ}

theorem keeps_watched (hc : L.watched c) (h : L.always s') : L.discipline.Keeps n c s s' :=
  ⟨h, fun _ _ _ => trivial, fun _ _ _ hco hc' => absurd ⟨hc, hc'⟩ hco⟩

theorem keeps_other (h : L.always s') (he : L.env s s') : L.discipline.Keeps n c s s' :=
  ⟨h, fun _ _ _ => trivial, fun _ _ _ _ _ => he⟩

section

variable {X : S → Type} {E : Type} {exec : Nat → (q : S) → ι → σ → Option (Option (X q) × σ)} {q : S}

theorem safe_demand {e : E} {post : Except E (X q) → σ → Prop} (hc : L.watched c) (K : σ → Prop)
    (hst : ∀ {s s'}, K s → L.env s s' → K s') (hK : K s)
    (h : ∀ {input s r s'}, L.always s → K s → L.care c q input s → exec n q input s = some (r, s') →
      L.always s' ∧ post (orError e r) s') : L.discipline.Safe exec n c (demand q e).run post s := by
  intro s₁ input r s' hal hre hca he
  obtain ⟨ha', hpo⟩ := h hal (hst hK (hre hc)) hca he
  exact ⟨keeps_watched hc ha', hpo⟩

theorem safe_demandOr {default : X q} {post : Except E (X q) → σ → Prop} (hc : L.watched c) (K : σ → Prop)
    (hst : ∀ {s s'}, K s → L.env s s' → K s') (hK : K s)
    (h : ∀ {input s r s'}, L.always s → K s → L.care c q input s → exec n q input s = some (r, s') →
      L.always s' ∧ post (.ok (r.getD default)) s') : L.discipline.Safe exec n c (demandOr q default).run post s := by
  intro s₁ input r s' hal hre hca he
  obtain ⟨ha', hpo⟩ := h hal (hst hK (hre hc)) hca he
  exact ⟨keeps_watched hc ha', hpo⟩

end

/-- A call that is not watched, whose statements the others can bear. -/
theorem safe_other {P : S → Prop} {p : Program S R α} {post : α → σ → Prop}
    (h : ∀ {q input s r s'}, P q → L.always s → exec n q input s = some (r, s') → L.always s' ∧ L.env s s')
    (hp : p.Asks P) (hpo : ∀ a s, post a s) : L.discipline.Safe exec n c p post s := by
  refine Discipline.safe_of_keeps (fun _ => True) (fun _ _ _ _ => trivial) ?_ (fun a s _ => hpo a s) hp trivial
  intro q input s r s' hq hal _ _ he
  obtain ⟨ha', hen⟩ := h hq hal he
  exact ⟨keeps_other ha' hen, trivial⟩

/-- What a call leaves behind: `rest`, or only what the others can bear. -/
def Post (L : Serial S ι σ κ) (rest : σ → Prop) (finish : Nat → κ → α → σ → σ) (n : Nat) (c : κ) (a : α)
    (s : σ) : Prop :=
  L.always s → L.always (finish n c a s) ∧ (L.watched c → rest (finish n c a s)) ∧
    (¬ L.watched c → L.env s (finish n c a s))

/-- The calls of a pool that wait, and what holds while none of them is watched. -/
structure PoolInvariant (L : Serial S ι σ κ) (exec : Nat → (q : S) → ι → σ → Option (R q × σ))
    (rest : σ → Prop) (finish : Nat → κ → α → σ → σ) (pool : Pool S R α κ σ) : Prop where
  always : L.always pool.store
  idle : (∀ p ∈ pool.running, ¬ L.watched p.call) → rest pool.store
  apart : pool.running.Pairwise fun p p' => ¬ (L.watched p.call ∧ L.watched p'.call)
  safe : ∀ p ∈ pool.running, (∃ q next, p.program = .ask q next) ∧
    L.discipline.Safe exec p.session p.call p.program (L.Post rest finish p.session p.call) pool.store

variable {rest : σ → Prop} {pool pool' : Pool S R α κ σ}

theorem PoolInvariant.waits (h : L.PoolInvariant exec rest finish pool) {p : Running S R α κ}
    (hp : p ∈ pool.running)
    (hre : L.watched p.call → L.env pool.store s) : (∃ q next, p.program = .ask q next) ∧
      L.discipline.Safe exec p.session p.call p.program (L.Post rest finish p.session p.call) s := by
  obtain ⟨⟨q, next, hpr⟩, hsa⟩ := h.safe p hp
  rw [hpr] at hsa ⊢
  exact ⟨⟨q, next, rfl⟩, hsa.wait hre⟩

theorem PoolInvariant.settle (before after : List (Running S R α κ)) (m : Nat) {program : Program S R α}
    (hst : ∀ {s s'}, rest s → L.env s s' → rest s') (hal : L.always s)
    (hre : ¬ L.watched c → (∀ p ∈ before ++ after, ¬ L.watched p.call) → rest s)
    (hap : (before ++ after).Pairwise fun p p' => ¬ (L.watched p.call ∧ L.watched p'.call))
    (hcr : L.watched c → ∀ p ∈ before ++ after, ¬ L.watched p.call)
    (hw : ∀ p ∈ before ++ after, ∀ t, (L.watched p.call → L.env s t) → (∃ q next, p.program = .ask q next) ∧
        L.discipline.Safe exec p.session p.call p.program (L.Post rest finish p.session p.call) t)
    (hsa : L.discipline.Safe exec n c program (L.Post rest finish n c) s) :
    L.PoolInvariant exec rest finish ⟨(Calls.settle finish n c s program).1, m,
      before ++ (Calls.settle finish n c s program).2.toList ++ after⟩ := by
  cases program with
  | done a =>
    -- The call has returned, and only the others are left.
    obtain ⟨ha', hr', he⟩ := hsa hal
    simp only [Calls.settle, Option.toList_none, append_nil]
    refine ⟨ha', fun hno => ?_, hap, fun p hp => hw p hp _ fun hpc => ?_⟩
    · by_cases hc : L.watched c
      · exact hr' hc
      · exact hst (hre hc hno) (he hc)
    · exact he fun hc => hcr hc p hp hpc
  | ask q next =>
    have hpe : (before ++ [(⟨n, c, .ask q next⟩ : Running S R α κ)] ++ after).Perm
        (⟨n, c, .ask q next⟩ :: (before ++ after)) := by
      rw [append_assoc]
      exact perm_middle
    refine ⟨hal, fun hno => ?_, ?_, fun p hp => ?_⟩
    · have hn' : ∀ p ∈ _ :: (before ++ after), ¬ L.watched p.call :=
        fun p hp => hno p (hpe.mem_iff.mpr hp)
      exact hre (hn' _ mem_cons_self) fun p hp => hn' p (mem_cons_of_mem _ hp)
    · refine (hpe.pairwise_iff fun h h' => h ⟨h'.2, h'.1⟩).mpr (pairwise_cons.mpr ⟨?_, hap⟩)
      intro p hp hbo
      exact hcr hbo.1 p hp hbo.2
    · rcases mem_cons.mp (hpe.mem_iff.mp hp) with rfl | hp
      · exact ⟨⟨q, next, rfl⟩, hsa⟩
      · exact hw p hp s fun _ => L.refl s

theorem PoolInvariant.step {a : Action ι κ ε} {c₀ : κ} (hc₀ : L.watched c₀)
    (h : L.PoolInvariant exec rest finish pool)
    (hs : ∀ {s s'}, rest s → L.env s s' → rest s')
    (hbo : ∀ n c s, L.always s → L.begins c s → (L.watched c → rest s) →
      L.discipline.Safe exec n c (body c s) (L.Post rest finish n c) s)
    (hou : ∀ e s, L.always s → L.always (outside e s) ∧ L.env s (outside e s))
    (hca : L.discipline.Careful pool a) (hst : pool.step exec body finish outside a = some pool') :
    L.PoolInvariant exec rest finish pool' := by
  cases a with
  | start call =>
    cases hst
    obtain ⟨hbe, hco⟩ := hca
    have hcr : L.watched call → ∀ p ∈ pool.running, ¬ L.watched p.call :=
      fun hc p hp hpc => (hco p hp).1 ⟨hpc, hc⟩
    have hsa := hbo pool.sessions call pool.store h.always hbe fun hc => h.idle (hcr hc)
    have hm : ∀ {p}, p ∈ pool.running ++ [] → p ∈ pool.running := fun hp => by rwa [append_nil] at hp
    have hse := PoolInvariant.settle pool.running [] (pool.sessions + 1) hs h.always
      (fun _ hno => h.idle fun p hp => hno p (mem_append_left _ hp))
      ((append_nil pool.running).symm ▸ h.apart) (fun hc p hp => hcr hc p (hm hp))
      (fun p hp t ht => h.waits (hm hp) ht) hsa
    rwa [append_nil] at hse
  | step i input =>
    simp only [Pool.step] at hst
    split at hst
    · rename_i n call q next hi
      obtain ⟨⟨r, s⟩, hexe, rfl⟩ := Option.map_eq_some_iff.mp hst
      obtain ⟨hil, hg⟩ := List.getElem?_eq_some_iff.mp hi
      obtain ⟨hke, hn⟩ := (h.safe _ (mem_of_getElem? hi)).2 pool.store input r s h.always
        (fun _ => L.refl _) (hca _ hi) hexe
      -- The pool is split at the call that steps.
      have hsp : pool.running =
          pool.running.take i ++ ⟨n, call, .ask q next⟩ :: pool.running.drop (i + 1) := by
        conv_lhs => rw [← take_append_drop i pool.running, drop_eq_getElem_cons hil, hg]
      have hpe : pool.running.Perm
          (⟨n, call, .ask q next⟩ :: (pool.running.take i ++ pool.running.drop (i + 1))) := by
        conv_lhs => rw [hsp]
        exact perm_middle
      obtain ⟨hh, hap⟩ := pairwise_cons.mp ((hpe.pairwise_iff fun h h' => h ⟨h'.2, h'.1⟩).mp h.apart)
      have hm : ∀ p ∈ pool.running.take i ++ pool.running.drop (i + 1), p ∈ pool.running :=
        fun p hp => hpe.mem_iff.mpr (mem_cons_of_mem _ hp)
      -- A call that is not watched has only done what the others can bear.
      have he : ∀ {c'}, L.watched c' → ¬ (L.watched call ∧ L.watched c') → L.env pool.store s :=
        fun hc' hco => hke.rely (n + 1) _ (Nat.succ_ne_self n) hco hc'
      refine PoolInvariant.settle _ _ _ hs hke.inv (fun hc hno => ?_) hap (fun hc p hp hpc => hh p hp ⟨hc, hpc⟩)
        (fun p hp t ht => h.waits (hm p hp) fun hpc => L.trans (he hpc (hh p hp)) (ht hpc)) hn
      refine hs (h.idle fun p hp => ?_) (he hc₀ fun hb => hc hb.1)
      rcases mem_cons.mp (hpe.mem_iff.mp hp) with rfl | hp
      · exact hc
      · exact hno p hp
    · cases hst
  | outside e =>
    cases hst
    obtain ⟨hal, he⟩ := hou e pool.store h.always
    exact ⟨hal, fun hno => hs (h.idle hno) he, h.apart, fun p hp => h.waits hp fun _ => he⟩

/-- **What every watched call restores holds whenever none of them is under way.** -/
theorem run_between {as : List (Action ι κ ε)} {c₀ : κ} (hc₀ : L.watched c₀)
    (hst : ∀ {s s'}, rest s → L.env s s' → rest s')
    (hbo : ∀ n c s, L.always s → L.begins c s → (L.watched c → rest s) →
      L.discipline.Safe exec n c (body c s) (L.Post rest finish n c) s)
    (hou : ∀ e s, L.always s → L.always (outside e s) ∧ L.env s (outside e s)) (hal : L.always s)
    (hr : rest s)
    (hca : Along (Pool.step exec body finish outside) L.discipline.Careful (.init s) as)
    (hru : run (Pool.step exec body finish outside) (.init s) as = some pool) :
    L.always pool.store ∧ ((∀ p ∈ pool.running, ¬ L.watched p.call) → rest pool.store) := by
  have hinv := run_invariant (P := L.PoolInvariant exec rest finish)
    (fun h hca hs => h.step hc₀ hst hbo hou hca hs)
    ⟨hal, fun _ => hr, .nil, by rintro _ ⟨⟩⟩ hca hru
  exact ⟨hinv.always, hinv.idle⟩

end Serial

end Calls
