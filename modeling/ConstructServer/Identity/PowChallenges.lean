import ConstructServer.Identity.Accounts

/-!
# Proof-of-work challenges

A registration looks its challenge up, checks the solution, marks the challenge used and creates the
account, each in a step of its own. Two registrations that look the same challenge up before either
has marked it both get an account for it; and a challenge that expires while it is marked is written
back without an expiry and stays for ever. If registrations with one challenge do not overlap, and
the key is there when its time to live is read, a challenge pays for one account.
-/

namespace ConstructServer.Identity

open Calls Machine Redis.Keyspace List Option
open Redis (Keyspace)

structure PowLog where
  issued : List String
  looked : List (Nat × String)
  accounts : List (Option String × Uuid)

namespace PowLog

def empty : PowLog := ⟨[], [], []⟩

def challengeOf (g : PowLog) (n : Nat) : Option String := (g.looked.find? fun p => p.1 = n).map Prod.snd

theorem challengeOf_look {g : PowLog} {n : Nat} {challenge : String} :
    challengeOf { g with looked := (n, challenge) :: g.looked } n = some challenge := by
  simp [challengeOf]

theorem challengeOf_look_of_ne {g : PowLog} {n n' : Nat} {challenge : String} (hn : n' ≠ n) :
    challengeOf { g with looked := (n, challenge) :: g.looked } n' = g.challengeOf n' := by
  simp [challengeOf, hn.symm]

end PowLog

def notePow (n : Nat) (q : IdentityStatement) (x : q.Reply) (_ : IdentityState) (g : PowLog) : PowLog :=
  match q, x with
  | .getPow challenge, _ =>
    if (g.challengeOf n).isSome then g else { g with looked := (n, challenge) :: g.looked }
  -- A challenge that is issued has not been used.
  | .setPow challenge record _, _ => if record.used then g else { g with issued := challenge :: g.issued }
  | .createUser .., some user => { g with accounts := (g.challengeOf n, user) :: g.accounts }
  | _, _ => g

def powWatch : Watcher IdentityCall PowLog := ⟨id, notePow, fun _ _ _ _ g => g⟩

theorem powChallengeKey_injective : Function.Injective powChallengeKey := fun _ _ h =>
  String.append_right_inj _ |>.mp h

def IdentityCall.presents : IdentityCall → Option String
  | .register _ req => some req.powSolution.challenge
  | _ => none

variable {cfg : IdentityConfig} {s s' : IdentityState} {q : IdentityStatement} {x : q.Reply} {pick : Pick}
  {n : Nat} {c : IdentityCall} {w w' : IdentityState × PowLog} {challenge : String}

/-! ### Challenges that have been used -/

/-- The challenge was issued, and is gone or marked as used. -/
structure Spent (challenge : String) (w : IdentityState × PowLog) : Prop where
  issued : challenge ∈ w.2.issued
  used : ∀ record, w.1.powChallenges.get w.1.now (powChallengeKey challenge) = some record →
    record.used = true

def Unpaid (challenge : String) (w : IdentityState × PowLog) : Prop :=
  ∀ a ∈ w.2.accounts, a.1 ≠ some challenge

structure PowInv (w : IdentityState × PowLog) : Prop where
  expiry : ∀ k cell, w.1.powChallenges k = some cell → cell.deadline.isSome = true
  issued : ∀ challenge cell, w.1.powChallenges (powChallengeKey challenge) = some cell →
    challenge ∈ w.2.issued
  paid : ∀ a ∈ w.2.accounts, ∃ challenge, a.1 = some challenge ∧ Spent challenge w
  once : (w.2.accounts.map Prod.fst).Nodup

variable {record : PowChallengeRecord}

theorem PowInv.unpaid (h : PowInv w)
    (hg : w.1.powChallenges.get w.1.now (powChallengeKey challenge) = some record)
    (hu : record.used = false) : challenge ∈ w.2.issued ∧ Unpaid challenge w := by
  constructor
  · obtain ⟨cell, hce, -⟩ := get_eq_some_iff.mp hg
    exact h.issued challenge cell hce
  · intro a ha heq
    obtain ⟨challenge', heq', hs⟩ := h.paid a ha
    cases heq.symm.trans heq'
    cases hu.symm.trans (hs.used record hg)

/-- Neither the challenges nor the accounts have changed. -/
structure SamePow (w w' : IdentityState × PowLog) : Prop where
  now : w'.1.now = w.1.now
  challenges : w'.1.powChallenges = w.1.powChallenges
  issued : w'.2.issued = w.2.issued

theorem SamePow.spent (h : SamePow w w') (hs : Spent challenge w) : Spent challenge w' := by
  refine ⟨h.issued ▸ hs.issued, fun record hg => hs.used record ?_⟩
  rwa [← h.now, ← h.challenges]

theorem SamePow.inv (h : SamePow w w') (hinv : PowInv w) (hac : w'.2.accounts = w.2.accounts) :
    PowInv w' := by
  refine ⟨?_, ?_, ?_, ?_⟩
  · rw [h.challenges]
    exact hinv.expiry
  · rw [h.challenges, h.issued]
    exact hinv.issued
  · rw [hac]
    intro a ha
    obtain ⟨challenge, heq, hs⟩ := hinv.paid a ha
    exact ⟨challenge, heq, h.spent hs⟩
  · rw [hac]
    exact hinv.once

theorem PowInv.set {ttl : Nat} (hinv : PowInv w)
    (his : record.used = false → challenge ∉ w.2.issued) (hm : record.used = true → challenge ∈ w.2.issued)
    (hn : w'.1.now = w.1.now) (hset : w'.1.powChallenges =
      w.1.powChallenges.set w.1.now (powChallengeKey challenge) record (some ttl))
    (hl : w'.2 = if record.used then w.2 else { w.2 with issued := challenge :: w.2.issued }) :
    PowInv w' ∧ (∀ challenge ∈ w.2.issued, challenge ∈ w'.2.issued) ∧
      ∀ challenge, Spent challenge w → Spent challenge w' := by
  have hmo : ∀ challenge ∈ w.2.issued, challenge ∈ w'.2.issued := by
    intro other ho
    rw [hl]
    split
    · exact ho
    · exact mem_cons_of_mem _ ho
  have hne : challenge ∈ w'.2.issued := by
    rw [hl]
    split
    · rename_i hu
      exact hm hu
    · exact mem_cons_self
  have hs : ∀ other, Spent other w → Spent other w' := by
    intro other ho
    refine ⟨hmo other ho.issued, fun found hg => ?_⟩
    rw [hn, hset] at hg
    by_cases heq : other = challenge
    · -- What was issued before is not issued again, so it is marked.
      rw [heq] at hg ho
      rw [get_set_self] at hg
      cases hg
      cases hu : record.used with
      | true => rfl
      | false => exact absurd ho.issued (his hu)
    · rw [get_set_of_ne (powChallengeKey_injective.ne heq)] at hg
      exact ho.used found hg
  have hac : w'.2.accounts = w.2.accounts := by
    rw [hl]
    split <;> rfl
  refine ⟨⟨fun k cell hce => ?_, fun other cell hce => ?_, ?_, ?_⟩, hmo, hs⟩
  · rw [hset] at hce
    by_cases hk : k = powChallengeKey challenge
    · rw [hk, set_apply_self] at hce
      cases hce
      rfl
    · rw [set_apply_of_ne hk] at hce
      exact hinv.expiry k cell hce
  · by_cases heq : other = challenge
    · exact heq ▸ hne
    · rw [hset, set_apply_of_ne (powChallengeKey_injective.ne heq)] at hce
      exact hmo other (hinv.issued other cell hce)
  · rw [hac]
    intro a ha
    obtain ⟨other, heq, ho⟩ := hinv.paid a ha
    exact ⟨other, heq, hs other ho⟩
  · rw [hac]
    exact hinv.once

/-! ### What the calls promise -/

/-- What a session relies on: challenges stay issued and used, and the others do not pay with the
challenge that it presents. -/
structure PowRely (n : Nat) (c : IdentityCall) (w w' : IdentityState × PowLog) : Prop where
  looked : w'.2.challengeOf n = w.2.challengeOf n
  issued : ∀ challenge ∈ w.2.issued, challenge ∈ w'.2.issued
  spent : ∀ challenge, Spent challenge w → Spent challenge w'
  unpaid : ∀ challenge, c.presents = some challenge → Unpaid challenge w → Unpaid challenge w'

/-- Registrations with the same challenge do not overlap, a challenge is issued once, and it is
still there for half a second when it is marked. -/
def onePayment : Discipline IdentityStatement (Input Pick) (IdentityState × PowLog) IdentityCall where
  inv := PowInv
  fresh n w := w.2.challengeOf n = none
  rely := PowRely
  begins _ _ := True
  compat c c' := ∀ challenge, c.presents = some challenge → c'.presents ≠ some challenge
  care _ q _ w := match q with
    | .setPow challenge record _ => record.used = false → challenge ∉ w.2.issued
    | .ttlPow challenge => 0 < w.1.powChallenges.ttl w.1.now (powChallengeKey challenge)
    | _ => True
  refl _ _ _ := ⟨rfl, fun _ => id, fun _ => id, fun _ _ => id⟩
  trans h h' := ⟨h'.looked.trans h.looked, fun challenge hmem => h'.issued challenge (h.issued challenge hmem),
    fun challenge hspent => h'.spent challenge (h.spent challenge hspent),
    fun challenge hpresents hunpaid =>
      h'.unpaid challenge hpresents (h.unpaid challenge hpresents hunpaid)⟩

structure Pays (n : Nat) (c : IdentityCall) (q : IdentityStatement) (w : IdentityState × PowLog) : Prop where
  issue : ∀ challenge record ttl, q = .setPow challenge record ttl → record.used = false →
    challenge ∉ w.2.issued
  mark : ∀ challenge record ttl, q = .setPow challenge record ttl → record.used = true →
    challenge ∈ w.2.issued
  expires : ∀ challenge record ttl, q = .setPow challenge record ttl → ttl.isSome = true
  create : ∀ hash data, q = .createUser hash data → ∃ challenge, w.2.challengeOf n = some challenge ∧
    c.presents = some challenge ∧ Spent challenge w ∧ Unpaid challenge w

def IdentityStatement.pays : IdentityStatement → Bool
  | .setPow .. | .createUser .. => true
  | _ => false

theorem pays_of_false (hq : q.pays = false) : Pays n c q w := by
  constructor
  · rintro challenge record ttl rfl
    cases hq
  · rintro challenge record ttl rfl
    cases hq
  · rintro challenge record ttl rfl
    cases hq
  · rintro hash data rfl
    cases hq

theorem not_pays_of_aside (q : IdentityStatement) (hq : q.isAside = true) : q.pays = false := by
  cases q <;> first | rfl | cases hq

/-! ### One statement -/

theorem IdentityEffect.powChallenges (h : IdentityEffect cfg s q s')
    (hq : ∀ challenge record ttl, q ≠ .setPow challenge record ttl) : s'.powChallenges = s.powChallenges := by
  cases h with
  | createDevice hin =>
    obtain ⟨-, -, -, -, rfl⟩ := insertDevice_eq_ok_iff.mp hin
    rfl
  | createUser _ hin =>
    obtain ⟨-, rfl⟩ := insertUser_eq_some hin
    rfl
  | setPow challenge record ttl _ => exact absurd rfl (hq challenge record ttl)
  | _ => rfl

theorem notePow_of_not_pays (hq : q.pays = false) (g : PowLog) :
    (notePow n q x s g).issued = g.issued ∧ (notePow n q x s g).accounts = g.accounts := by
  unfold notePow
  split
  · split
    · exact ⟨rfl, rfl⟩
    · exact ⟨rfl, rfl⟩
  · cases hq
  · cases hq
  · exact ⟨rfl, rfl⟩

theorem challengeOf_notePow_of_ne {n' : Nat} (hn : n' ≠ n) (g : PowLog) :
    (notePow n q x s g).challengeOf n' = g.challengeOf n' := by
  unfold notePow
  split
  · split
    · rfl
    · exact PowLog.challengeOf_look_of_ne hn
  · split <;> rfl
  · rfl
  · rfl

theorem challengeOf_notePow {g : PowLog} (h : g.challengeOf n = some challenge) :
    (notePow n q x s g).challengeOf n = some challenge := by
  unfold notePow
  split
  · rw [h]
    exact h
  · split <;> exact h
  · exact h
  · exact h

theorem samePow_of_not_pays (hq : q.pays = false) (he : w.1.effect cfg q pick = some (x, w'.1))
    (hno : w'.2 = notePow n q x w.1 w.2) : SamePow w w' ∧ w'.2.accounts = w.2.accounts := by
  have hin := identityEffect_of_effect he
  obtain ⟨his, hac⟩ := notePow_of_not_pays (n := n) (x := x) (s := w.1) hq w.2
  refine ⟨⟨hin.now_eq, hin.powChallenges ?_, hno ▸ his⟩, hno ▸ hac⟩
  rintro challenge record ttl rfl
  cases hq

theorem PowInv.effect (hinv : PowInv w) (hpa : Pays n c q w)
    (he : w.1.effect cfg q pick = some (x, w'.1)) (hno : w'.2 = notePow n q x w.1 w.2) :
    PowInv w' ∧ (∀ challenge ∈ w.2.issued, challenge ∈ w'.2.issued) ∧
      (∀ challenge, Spent challenge w → Spent challenge w') ∧
      ∀ challenge, c.presents ≠ some challenge → Unpaid challenge w → Unpaid challenge w' := by
  cases hq : q.pays with
  | false =>
    obtain ⟨hs, hac⟩ := samePow_of_not_pays hq he hno
    refine ⟨hs.inv hinv hac, fun challenge hm => hs.issued ▸ hm, fun _ => hs.spent, fun challenge _ hu => ?_⟩
    rw [Unpaid, hac]
    exact hu
  | true =>
    cases q with
    | setPow challenge record ttl =>
      obtain ⟨ttl, rfl⟩ := isSome_iff_exists.mp (hpa.expires challenge record ttl rfl)
      simp only [IdentityState.effect] at he
      obtain ⟨ks, hks, heq⟩ := map_eq_some_iff.mp he
      obtain ⟨-, hs'⟩ := Prod.mk.inj heq
      obtain ⟨-, -, rfl⟩ := setEx_eq_some_iff.mp hks
      have hn : w'.1.now = w.1.now := hs' ▸ rfl
      obtain ⟨hinv', his, hsp⟩ := PowInv.set hinv (hpa.issue challenge record _ rfl)
        (hpa.mark challenge record _ rfl) hn (by rw [← hs']) hno
      refine ⟨hinv', his, hsp, fun other _ hu => ?_⟩
      rw [Unpaid, hno]
      simp only [notePow]
      split <;> exact hu
    | createUser hash data =>
      obtain ⟨challenge, hl, hp, hsp, hu⟩ := hpa.create hash data rfl
      have hin := identityEffect_of_effect he
      have hks : w'.1.powChallenges = w.1.powChallenges :=
        hin.powChallenges fun _ _ _ heq => by cases heq
      cases x with
      | none =>
        have hs : SamePow w w' := ⟨hin.now_eq, hks, by rw [hno]; rfl⟩
        have hac : w'.2.accounts = w.2.accounts := by rw [hno]; rfl
        refine ⟨hs.inv hinv hac, fun _ hm => hs.issued ▸ hm, fun _ => hs.spent, fun other _ hu => ?_⟩
        rw [Unpaid, hac]
        exact hu
      | some user =>
        have hs : SamePow w w' := ⟨hin.now_eq, hks, by rw [hno]; rfl⟩
        have hac : w'.2.accounts = (some challenge, user) :: w.2.accounts := by
          rw [hno, ← hl]
          rfl
        refine ⟨⟨?_, ?_, ?_, ?_⟩, fun _ hm => hs.issued ▸ hm, fun _ => hs.spent, fun other ho hu => ?_⟩
        · rw [hks]
          exact hinv.expiry
        · rw [hks, hs.issued]
          exact hinv.issued
        · rw [hac]
          intro a ha
          rcases mem_cons.mp ha with rfl | ha
          · exact ⟨challenge, rfl, hs.spent hsp⟩
          · obtain ⟨other, heq, ho⟩ := hinv.paid a ha
            exact ⟨other, heq, hs.spent ho⟩
        · rw [hac, map_cons, nodup_cons]
          refine ⟨fun hm => ?_, hinv.once⟩
          obtain ⟨a, ha, heq⟩ := mem_map.mp hm
          exact hu a ha heq
        · rw [Unpaid, hac]
          intro a ha
          rcases mem_cons.mp ha with rfl | ha
          · rw [← hp]
            exact ho
          · exact hu a ha
    | _ => cases hq

theorem keeps_pow (hinv : PowInv w) (hpa : Pays n c q w)
    (h : watchedEffect cfg powWatch n q pick w = some (x, w')) : onePayment.Keeps n c w w' := by
  obtain ⟨he, hno⟩ := noted_eq_some h
  obtain ⟨hinv', his, hs, hu⟩ := hinv.effect hpa he hno
  have hl : ∀ n', n' ≠ n → w'.2.challengeOf n' = w.2.challengeOf n' := by
    intro n' hn'
    rw [hno]
    exact challengeOf_notePow_of_ne (s := w.1) hn' w.2
  refine ⟨hinv', fun n' hn' hf => (hl n' (Nat.ne_of_gt hn')).trans hf, fun n' c' hn' hco =>
    ⟨hl n' hn', his, hs, fun challenge hp => hu challenge fun heq => ?_⟩⟩
  exact hco challenge heq hp

/-! ### A registration step by step -/

variable {α E : Type}

/-- The call pays as agreed. -/
abbrev PaysSafely (cfg : IdentityConfig) :=
  onePayment.Safe (α := α) (fun n => fallible (watchedEffect cfg powWatch n))

theorem safe_bystander_pow {p : Program IdentityStatement (fun q => Option q.Reply) α}
    {post : α → IdentityState × PowLog → Prop} (hp : p.Asks fun q => q.pays = false) (hpo : ∀ a w, post a w) :
    PaysSafely cfg n c p post w := by
  refine Discipline.safe_of_keeps (fun _ => True) (fun _ _ _ _ => trivial)
    (fun q input w r w' hq hinv _ _ he => ?_) (fun a w _ => hpo a w) hp trivial
  cases fallible_case he with
  | failed => exact ⟨.refl hinv, trivial⟩
  | effect hef _ => exact ⟨keeps_pow hinv (pays_of_false hq) hef, trivial⟩

def IdentityStatement.looks : IdentityStatement → Bool
  | .getPow _ => true
  | _ => false

theorem safe_unlooked {p : Fallible IdentityStatement IdentityStatement.Reply E α}
    (hp : p.run.Asks fun q => q.isAside = true ∧ q.looks = false) (hw : w.2.challengeOf n = none) :
    PaysSafely cfg n c p.run (onOk fun _ w => w.2.challengeOf n = none) w := by
  refine Discipline.safe_of_keeps (fun w => w.2.challengeOf n = none) (fun w w' hw hre => hre.looked.trans hw)
    (fun q input w r w' hq hinv hw _ hexe => ?_) (fun r w hw => ?_) hp hw
  · cases fallible_case hexe with
    | failed => exact ⟨.refl hinv, hw⟩
    | @effect x _ _ he _ =>
      refine ⟨keeps_pow hinv (pays_of_false (not_pays_of_aside q hq.1)) he, ?_⟩
      obtain ⟨-, hno⟩ := noted_eq_some he
      rw [hno]
      show (notePow n q x w.1 w.2).challengeOf n = none
      unfold notePow
      split
      · cases hq.2
      · cases hq.1
      · cases hq.1
      · exact hw
  · cases r with
    | ok _ => exact hw
    | error _ => trivial

/-- The session has looked up the challenge that it presents, for which there is no account yet. -/
structure Presents (n : Nat) (c : IdentityCall) (challenge : String) (marked : Bool)
    (w : IdentityState × PowLog) : Prop where
  call : c.presents = some challenge
  looked : w.2.challengeOf n = some challenge
  issued : challenge ∈ w.2.issued
  unpaid : Unpaid challenge w
  spent : marked = true → Spent challenge w

variable {marked : Bool}

theorem Presents.stable (h : Presents n c challenge marked w) (hre : onePayment.rely n c w w') :
    Presents n c challenge marked w' :=
  ⟨h.call, hre.looked.trans h.looked, hre.issued challenge h.issued,
    hre.unpaid challenge h.call h.unpaid, fun hm => hre.spent challenge (h.spent hm)⟩

theorem Presents.effect (h : Presents n c challenge marked w) (hinv : PowInv w) (hpa : Pays n c q w)
    (hq : ∀ hash data, q ≠ .createUser hash data)
    (he : watchedEffect cfg powWatch n q pick w = some (x, w')) :
    Presents n c challenge marked w' := by
  obtain ⟨he, hno⟩ := noted_eq_some he
  obtain ⟨-, his, hs, -⟩ := hinv.effect hpa he hno
  refine ⟨h.call, hno ▸ challengeOf_notePow (s := w.1) h.looked, his challenge h.issued, ?_,
    fun hm => hs challenge (h.spent hm)⟩
  rw [Unpaid, hno]
  show ∀ a ∈ (notePow n q x w.1 w.2).accounts, a.1 ≠ some challenge
  unfold notePow
  split
  · split <;> exact h.unpaid
  · split <;> exact h.unpaid
  · exact absurd rfl (hq _ _)
  · exact h.unpaid

theorem safe_aside_pow {p : Fallible IdentityStatement IdentityStatement.Reply E α}
    (hp : p.run.Asks fun q => q.isAside = true) (hw : Presents n c challenge marked w) : PaysSafely cfg n c p.run
      (onOk fun _ w => Presents n c challenge marked w) w := by
  refine Discipline.safe_of_keeps (Presents n c challenge marked) (fun _ _ => Presents.stable)
    (fun q input w r w' hq hinv hw _ hexe => ?_) (fun r w hw => ?_) hp hw
  · have hpa : Pays n c q w := pays_of_false (not_pays_of_aside q hq)
    cases fallible_case hexe with
    | failed => exact ⟨.refl hinv, hw⟩
    | effect he _ =>
      refine ⟨keeps_pow hinv hpa he, hw.effect hinv hpa ?_ he⟩
      rintro hash data rfl
      cases hq
  · cases r with
    | ok _ => exact hw
    | error _ => trivial

theorem safe_getPow_first {e : AppError} (hc : c.presents = some challenge) (hw : w.2.challengeOf n = none) :
    PaysSafely cfg n c (statement (.getPow challenge) e).run
      (onOk fun found w => ∀ record ∈ found.2, record.used = false → Presents n c challenge false w) w := by
  refine safe_effect (fun w => w.2.challengeOf n = none) (fun hw hr => hr.looked.trans hw) hw
    (fun _ => trivial) fun {input w x w'} hinv hw _ he => ?_
  refine ⟨keeps_pow hinv (pays_of_false rfl) he, trivial, fun record hre hu => ?_⟩
  obtain ⟨hg, hno⟩ := noted_eq_some he
  obtain ⟨hrea, -⟩ := Prod.mk.inj (some.inj hg)
  rw [← hrea] at hre
  obtain ⟨his, hun⟩ := hinv.unpaid hre hu
  have hl : w'.2 = { w.2 with looked := (n, challenge) :: w.2.looked } := by
    rw [hno]
    show (if (w.2.challengeOf n).isSome then w.2 else _) = _
    rw [hw]
    rfl
  refine ⟨hc, ?_, ?_, ?_, fun hm => by cases hm⟩
  · rw [hl]
    exact PowLog.challengeOf_look
  · rw [hl]
    exact his
  · rw [Unpaid, hl]
    exact hun

theorem safe_getPow_again {e : String} (hw : Presents n c challenge false w) :
    PaysSafely cfg n c (statement (.getPow challenge) e).run
      (onOk fun found w => Presents n c challenge found.2.isNone w) w := by
  refine safe_effect (Presents n c challenge false) Presents.stable hw (fun _ => trivial)
    fun {input w x w'} hinv hw _ he => ?_
  have hpa : Pays n c (.getPow challenge) w := pays_of_false rfl
  refine ⟨keeps_pow hinv hpa he, trivial, ?_⟩
  have hw' := hw.effect hinv hpa (fun _ _ heq => by cases heq) he
  obtain ⟨hg, -⟩ := noted_eq_some he
  obtain ⟨hr, hs⟩ := Prod.mk.inj (some.inj hg)
  refine ⟨hw'.call, hw'.looked, hw'.issued, hw'.unpaid, fun hm => ⟨hw'.issued, fun record hre => ?_⟩⟩
  rw [← hr, isNone_iff_eq_none] at hm
  rw [← hs] at hre
  cases hm.symm.trans hre

theorem pays_mark {ttl : Nat} (hu : record.used = true)
    (his : challenge ∈ w.2.issued) : Pays n c (.setPow challenge record (some ttl)) w where
  issue _ _ _ heq hun := by
    cases heq
    cases hu.symm.trans hun
  mark _ _ _ heq _ := by
    cases heq
    exact his
  expires _ _ _ heq := by
    cases heq
    rfl
  create _ _ heq := by cases heq

theorem safe_setPow_used {ttl : Nat} {e : String} (hu : record.used = true)
    (hw : Presents n c challenge false w) :
    PaysSafely cfg n c (statement (.setPow challenge record (some ttl)) e).run
      (onOk fun _ w => Presents n c challenge true w) w := by
  refine safe_effect (Presents n c challenge false) Presents.stable hw (fun _ => trivial)
    fun {input w x w'} hinv hw _ he => ?_
  have hpa : Pays n c (.setPow challenge record (some ttl)) w := pays_mark hu hw.issued
  refine ⟨keeps_pow hinv hpa he, trivial, ?_⟩
  have hw' := hw.effect hinv hpa (fun _ _ heq => by cases heq) he
  obtain ⟨hset, -⟩ := noted_eq_some he
  simp only [IdentityState.effect] at hset
  obtain ⟨ks, hks, heq⟩ := map_eq_some_iff.mp hset
  obtain ⟨-, hs'⟩ := Prod.mk.inj heq
  obtain ⟨-, -, rfl⟩ := setEx_eq_some_iff.mp hks
  refine ⟨hw'.call, hw'.looked, hw'.issued, hw'.unpaid, fun _ => ⟨hw'.issued, fun found hg => ?_⟩⟩
  rw [← hs'] at hg
  cases get_set_self.symm.trans hg
  exact hu

theorem safe_markPowChallengeUsed (hw : Presents n c challenge false w) : PaysSafely cfg n c
      (markPowChallengeUsed challenge).run (onOk fun _ w => Presents n c challenge true w) w := by
  refine safe_then _ (safe_getPow_again hw) fun found w hw => ?_
  split
  · rename_i hno
    rw [hno] at hw
    exact hw
  · rename_i record hs
    rw [hs] at hw
    refine safe_then (fun ttl w => 0 < ttl ∧ Presents n c challenge false w)
      (safe_effect (Presents n c challenge false) Presents.stable hw (fun _ => trivial)
        fun {input w x w'} hinv hw hca he => ?_) fun ttl w hw => ?_
    · have hpa : Pays n c (.ttlPow challenge) w := pays_of_false rfl
      refine ⟨keeps_pow hinv hpa he, trivial, ?_, hw.effect hinv hpa (fun _ _ heq => by cases heq) he⟩
      obtain ⟨hre, -⟩ := Prod.mk.inj (some.inj (noted_eq_some he).1)
      rw [← hre]
      exact hca
    · rw [if_pos hw.1]
      refine safe_then _ (safe_setPow_used rfl hw.2) fun _ w hw => ?_
      split
      · exact hw
      · exact safe_then _ (safe_aside_pow (asks_demand rfl) hw) fun _ w hw =>
          safe_aside_pow (asks_demand rfl) hw

theorem pays_createUser {hash : Option Queue.Bytes} {data : CreateDeviceData}
    (hw : Presents n c challenge true w) : Pays n c (.createUser hash data) w where
  issue _ _ _ heq := by cases heq
  mark _ _ _ heq := by cases heq
  expires _ _ _ heq := by cases heq
  create _ _ _ := ⟨challenge, hw.looked, hw.call, hw.spent rfl, hw.unpaid⟩

theorem safe_createAccount_pow {req : RegisterRequest} (hw : Presents n c challenge true w) :
    PaysSafely cfg n c (createAccount cfg req).run (onOk fun _ _ => True) w := by
  refine safe_then _ (safe_aside_pow ?_ hw) fun _ w hw => ?_
  · unfold usernameFree
    split
    · trivial
    · exact asks_then (asks_attempt (asks_demand rfl)) fun _ => asks_ensure
  · refine safe_then (fun _ _ => True) (safe_effect (Presents n c challenge true) Presents.stable hw
      (fun _ => trivial) fun hinv hw _ he =>
        ⟨keeps_pow hinv (pays_createUser hw) he, trivial, trivial⟩) fun created w _ => ?_
    refine safe_bystander_pow ?_ fun r w => by cases r <;> trivial
    split
    · trivial
    · refine asks_next rfl fun _ => asks_next rfl fun _ => ?_
      exact asks_then (asks_attempt (asks_storeRefreshToken not_pays_of_aside _ _)) fun _ => trivial

theorem checkPow_eq_ok {solution : PowSolution} {now : Nat} {record : Option PowChallengeRecord} {a : Unit}
    (h : checkPow cfg solution now record = .ok a) : ∃ found, record = some found ∧ found.used = false := by
  unfold checkPow at h
  split at h
  · cases h
  · rename_i found
    split at h
    · cases h
    · split at h
      · cases h
      · rename_i hu
        exact ⟨found, rfl, by simpa using hu⟩

theorem safe_registerDevice_pow {ip : String} {req : RegisterRequest}
    (hc : c.presents = some req.powSolution.challenge) (hw : w.2.challengeOf n = none) :
    PaysSafely cfg n c (registerDevice cfg ip req).run (onOk fun _ _ => True) w := by
  refine safe_then _ (safe_unlooked (asks_limitRegistrations ⟨rfl, rfl⟩ ⟨rfl, rfl⟩) hw) fun _ w hw => ?_
  refine safe_then (fun _ w => w.2.challengeOf n = none) (safe_check (fun _ _ => hw) trivial) fun _ w hw => ?_
  refine safe_then _ (safe_unlooked (asks_attempt (asks_demand ⟨rfl, rfl⟩)) hw) fun _ w hw => ?_
  refine safe_then (fun _ w => w.2.challengeOf n = none) (safe_ensure (fun _ => hw) fun _ => trivial)
    fun _ w hw => ?_
  refine safe_then _ (safe_getPow_first hc hw) fun found w hf => ?_
  obtain ⟨now, record⟩ := found
  refine safe_then (fun _ w => Presents n c req.powSolution.challenge false w)
    (safe_check (fun _ hpo => ?_) trivial) fun _ w hw => ?_
  · obtain ⟨record, rfl, hu⟩ := checkPow_eq_ok hpo
    exact hf record rfl hu
  · exact safe_then _ (safe_mapErr (safe_markPowChallengeUsed hw)) fun _ w hw => safe_createAccount_pow hw

theorem safe_createPowChallenge {difficulty : Nat} {ip : Option String} {now ttl : Nat} : PaysSafely cfg n c
      (createPowChallenge challenge difficulty ip now ttl).run (onOk fun _ _ => True) w := by
  refine safe_effect (fun _ => True) (fun _ _ => trivial) trivial (fun _ => trivial)
    fun hinv _ hca he => ⟨keeps_pow hinv ⟨?_, ?_, ?_, ?_⟩ he, trivial, trivial⟩
  · rintro _ _ _ heq
    cases heq
    exact hca
  · rintro _ _ _ heq hu
    cases heq
    cases hu
  · rintro _ _ _ heq
    cases heq
    rfl
  · rintro _ _ heq
    cases heq

/-! ### Every run -/

theorem ends_pow {answer : IdentityAnswer} : onePayment.Ends (watchedEnd powWatch) n c answer w :=
  fun hinv => .refl hinv

theorem safe_identityBody_pow (hw : w.2.challengeOf n = none) : PaysSafely cfg n c
      (identityBody cfg c w.1) (onePayment.Ends (watchedEnd powWatch) n c) w := by
  have hby : ∀ {β E : Type} {p : Fallible IdentityStatement IdentityStatement.Reply E β}
      {ok : β → IdentityAnswer} {err : E → IdentityAnswer}, (p.run.Asks fun q => q.pays = false) →
      PaysSafely cfg n c (conclude ok err p)
        (onePayment.Ends (watchedEnd powWatch) n c) w :=
    fun hp => safe_bystander_pow (asks_conclude hp) fun _ _ => ends_pow
  cases c with
  | recover req =>
    exact hby (asks_recoverAccount not_pays_of_aside (fun _ _ => rfl) (fun _ => rfl)
      (fun _ _ _ _ _ _ _ _ => rfl) (fun _ _ => rfl) fun _ => rfl)
  | confirmLink req =>
    exact hby (asks_confirmDeviceLink not_pays_of_aside fun _ _ _ _ _ _ => rfl)
  | submitJoin req => exact hby (asks_submitJoinRequest not_pays_of_aside fun _ _ => rfl)
  | approveJoin sub req =>
    exact hby (asks_approveJoinRequest not_pays_of_aside rfl (fun _ _ => rfl) fun _ => rfl)
  | checkJoin device => exact hby (asks_checkJoinRequestStatus not_pays_of_aside _)
  | register ip req =>
    refine safe_conclude ((safe_registerDevice_pow rfl hw).mono fun r w _ => ?_)
    cases r with
    | ok | error => exact ends_pow
  | issueChallenge challenge difficulty ip ttl =>
    refine safe_conclude (safe_createPowChallenge.mono fun r w _ => ?_)
    cases r with
    | ok | error => exact ends_pow

theorem Spent.tick {ms : Nat} (h : Spent challenge w) : Spent challenge (w.1.tick ms, w.2) :=
  ⟨h.issued, fun record hg => h.used record (get_mono (Nat.le_add_right _ _) hg)⟩

/-- In every run in which registrations with one challenge do not overlap, no challenge is issued
twice, and a challenge that is marked is there for half a second more: every account is paid with a
challenge that was issued, no challenge pays for two accounts, and every challenge expires. -/
theorem challenges_pay_once (cfg : IdentityConfig) {as : List (WatchedAction IdentityCall)}
    {pool : WatchedPool IdentityCall PowLog} (hstart : ∀ k, s.powChallenges k = none)
    (hcareful : Along (watchedStep cfg powWatch) onePayment.Careful (.init (s, .empty)) as)
    (hrun : run (watchedStep cfg powWatch) (.init (s, .empty)) as = some pool) :
    (∀ a ∈ pool.store.2.accounts, ∃ challenge ∈ pool.store.2.issued, a.1 = some challenge) ∧
    (pool.store.2.accounts.map Prod.fst).Nodup ∧
    ∀ k cell, pool.store.1.powChallenges k = some cell → cell.deadline.isSome = true := by
  have hinit : PowInv (s, .empty) := by
    refine ⟨fun k cell hcell => ?_, fun challenge cell hcell => ?_, nofun, .nil⟩
    · cases (hstart k).symm.trans hcell
    · cases (hstart _).symm.trans hcell
  have hinv := watched_run_invariant (D := onePayment)
    (fun _ _ _ _ hfresh _ => safe_identityBody_pow hfresh) (fun ms w hinv => ?_) hinit
    (fun _ => rfl) hcareful hrun
  · refine ⟨fun a ha => ?_, hinv.once, hinv.expiry⟩
    obtain ⟨challenge, heq, hspent⟩ := hinv.paid a ha
    exact ⟨challenge, hspent.issued, heq⟩
  · refine ⟨⟨hinv.expiry, hinv.issued, fun a ha => ?_, hinv.once⟩, fun _ => id, fun _ _ =>
      ⟨rfl, fun _ => id, fun _ => Spent.tick, fun _ _ => id⟩⟩
    obtain ⟨challenge, heq, hspent⟩ := hinv.paid a ha
    exact ⟨challenge, heq, hspent.tick⟩

/-! ### One registration, and two at once -/

attribute [reducible] onePayment

instance decidablePaymentCare (c : IdentityCall) (q : IdentityStatement) (input : Input Pick)
    (w : IdentityState × PowLog) : Decidable (onePayment.care c q input w) := by
  apply @IdentityStatement.casesOn (fun q => Decidable (onePayment.care c q input w)) q <;> intros <;> infer_instance

instance decidablePaymentCompat (c c' : IdentityCall) : Decidable (onePayment.compat c c') :=
  match h : c.presents with
  | none => isTrue fun challenge hc => by rw [h] at hc; cases hc
  | some challenge => decidable_of_iff (c'.presents ≠ some challenge)
      ⟨fun hne other hother => by rw [h] at hother; cases hother; exact hne, fun hall => hall challenge h⟩

def paidAccount (d : Fin 16) : Uuid := Uuid.repeated d

def registerAs (b : UInt8) : IdentityCall :=
  .register "unknown" ⟨none, computedDeviceId demoConfig (replicate 16 b), demoDeviceKeys b, false,
    ⟨"c", 0, ""⟩⟩

def accountPicks (user : Uuid) (access refresh : String) : List Pick :=
  [.user user, .jti access, .jti refresh, .none, .none, .none]

def issueFirst : List (WatchedAction IdentityCall) :=
  [.start (.issueChallenge "c" 0 none 300), .step 0 ⟨.ok, .none⟩]

def goOn (picks : List Pick) : List (WatchedAction IdentityCall) :=
  picks.map fun pick => .step 0 ⟨.ok, pick⟩

theorem challenges_pay_once_demo :
    ∃ pool, run (watchedStep demoConfig powWatch) (.init (demoAccounts, .empty))
        (issueFirst ++ .start (registerAs 1) :: goOn (replicate 5 .none ++
          accountPicks (paidAccount (Uuid.digit 1)) "a" "b")) = some pool ∧
      pool.store.2.accounts = [(some "c", paidAccount (Uuid.digit 1))] ∧
      (∀ a ∈ pool.store.2.accounts, ∃ challenge ∈ pool.store.2.issued, a.1 = some challenge) ∧
      (pool.store.2.accounts.map Prod.fst).Nodup ∧
      ∀ k cell, pool.store.1.powChallenges k = some cell → cell.deadline.isSome = true :=
  reaches_with (by decide +kernel) fun _ hrun _ =>
    challenges_pay_once demoConfig (fun _ => rfl) (by decide +kernel) hrun

def bothLook : List (WatchedAction IdentityCall) :=
  issueFirst ++
    [.start (registerAs 1), .step 0 ⟨.ok, .none⟩, .step 0 ⟨.ok, .none⟩,
      .start (registerAs 2), .step 1 ⟨.ok, .none⟩, .step 1 ⟨.ok, .none⟩] ++
    goOn (replicate 3 .none ++ accountPicks (paidAccount (Uuid.digit 1)) "a" "b") ++
    [.step 0 ⟨.ok, .none⟩, .outside (300 * 1000), .step 0 ⟨.ok, .none⟩, .step 0 ⟨.ok, .none⟩] ++
    goOn (accountPicks (paidAccount (Uuid.digit 2)) "c" "d")

/-- One challenge has paid for two accounts, and is in Redis without an expiry. -/
theorem challenge_pays_twice :
    ∃ pool, run (watchedStep demoConfig powWatch) (.init (demoAccounts, .empty)) bothLook = some pool ∧
      pool.store.2.issued = ["c"] ∧ pool.store.2.accounts =
        [(some "c", paidAccount (Uuid.digit 2)), (some "c", paidAccount (Uuid.digit 1))] ∧
      (pool.store.1.powChallenges (powChallengeKey "c")).map Redis.Cell.deadline = some none :=
  reaches _ _ _ _ (by decide +kernel)

end ConstructServer.Identity
