import Mathlib

/-!
# Runs of a partial transition function

A machine takes one action at a time and an action may be disabled.
-/

namespace Clio.Machine

variable {S A : Type}

def run (exec : S → A → Option S) : List A → S → Option S
  | [], s => some s
  | a::as, s => (exec s a).bind (run exec as)

def Guarded (exec : S → A → Option S) (ok : S → A → Prop) : List A → S → Prop
  | [], _ => True
  | a::as, s => ok s a ∧ (exec s a).elim True (Guarded exec ok as)

instance decidableGuarded (exec : S → A → Option S) (ok : S → A → Prop)
    [∀ s a, Decidable (ok s a)] : ∀ (as : List A) (s : S), Decidable (Guarded exec ok as s)
  | [], _ => .isTrue trivial
  | a::as, s =>
      match h : exec s a with
      | none => decidable_of_iff (ok s a) (by simp [Guarded, h])
      | some m =>
          have := decidableGuarded exec ok as m
          decidable_of_iff (ok s a ∧ Guarded exec ok as m) (by simp [Guarded, h])

lemma run_cons (exec : S → A → Option S) (a : A) (as : List A) (s u : S)
    (h : run exec (a::as) s = some u) :
    ∃ m, exec s a = some m ∧ run exec as m = some u :=
  Option.bind_eq_some_iff.mp h

lemma run_append (exec : S → A → Option S) (as bs : List A) (s u : S) :
    run exec (as++bs) s = some u ↔ ∃ m, run exec as s = some m ∧ run exec bs m = some u := by
  induction as generalizing s with
  | nil => simp [run]
  | cons a as ih =>
    constructor
    · intro h
      obtain ⟨m,hm,hrest⟩ := run_cons exec a (as++bs) s u h
      obtain ⟨n,hn,hu⟩ := (ih m).mp hrest
      exact ⟨n,by rw [run,hm,Option.bind_some,hn],hu⟩
    · rintro ⟨n,hn,hu⟩
      obtain ⟨m,hm,hrest⟩ := run_cons exec a as s n hn
      rw [List.cons_append,run,hm,Option.bind_some]
      exact (ih m).mpr ⟨n,hrest,hu⟩

section

variable (exec : S → A → Option S) (ok : S → A → Prop)
include exec ok

lemma run_invariant (Inv : S → Prop) (hstep : ∀ s a u, Inv s → ok s a → exec s a = some u → Inv u)
    (as : List A) (s u : S) (hs : Inv s) (hok : Guarded exec ok as s)
    (hrun : run exec as s = some u) : Inv u := by
  induction as generalizing s with
  | nil => exact Option.some.inj hrun ▸ hs
  | cons a as ih =>
    obtain ⟨m,hm,hrest⟩ := run_cons exec a as s u hrun
    have hguard : Guarded exec ok as m := by simpa [Guarded,hm] using hok.2
    exact ih m (hstep s a m hs hok.1 hm) hguard hrest

lemma guarded_append (as bs : List A) (s m : S) (hok : Guarded exec ok (as++bs) s)
    (hrun : run exec as s = some m) :
    Guarded exec ok as s ∧ Guarded exec ok bs m := by
  induction as generalizing s with
  | nil => exact ⟨trivial,Option.some.inj hrun ▸ hok⟩
  | cons a as ih =>
    obtain ⟨n,hn,hrest⟩ := run_cons exec a as s m hrun
    have hguard : Guarded exec ok (as++bs) n := by simpa [Guarded,hn] using hok.2
    obtain ⟨hfirst,hlast⟩ := ih n hguard hrest
    exact ⟨⟨hok.1,by simpa [hn] using hfirst⟩,hlast⟩

lemma guarded_concat (as bs : List A) (s m : S) (hfirst : Guarded exec ok as s)
    (hrun : run exec as s = some m) (hlast : Guarded exec ok bs m) :
    Guarded exec ok (as++bs) s := by
  induction as generalizing s with
  | nil =>
    cases hrun
    exact hlast
  | cons a as ih =>
    obtain ⟨n,hn,hrest⟩ := run_cons exec a as s m hrun
    refine ⟨hfirst.1,?_⟩
    have hguard : Guarded exec ok as n := by simpa [Guarded,hn] using hfirst.2
    rw [hn]
    exact ih n hguard hrest

lemma run_succeeds (Inv : S → Prop)
    (hstep : ∀ s a, Inv s → ok s a → ∃ u, exec s a = some u ∧ Inv u) (as : List A) (s : S)
    (hs : Inv s) (hok : Guarded exec ok as s) : ∃ u, run exec as s = some u ∧ Inv u := by
  induction as generalizing s with
  | nil => exact ⟨s,rfl,hs⟩
  | cons a as ih =>
    obtain ⟨m,hm,hinv⟩ := hstep s a hs hok.1
    obtain ⟨u,hu,hlast⟩ := ih m hinv (by simpa [Guarded,hm] using hok.2)
    exact ⟨u,by rw [run,hm,Option.bind_some,hu],hlast⟩

lemma guarded_and (P : A → Prop) (as : List A) (s : S) (hok : Guarded exec ok as s)
    (hall : ∀ a ∈ as, P a) :
    Guarded exec (fun s a => ok s a ∧ P a) as s := by
  induction as generalizing s with
  | nil => trivial
  | cons a as ih =>
    refine ⟨⟨hok.1,hall a (by simp)⟩,?_⟩
    cases hm : exec s a with
    | none => trivial
    | some m => exact ih m (by simpa [hm] using hok.2) (fun b hb => hall b (by simp [hb]))

lemma guarded_of_forall (as : List A) (s : S) (hall : ∀ a ∈ as, ∀ s, ok s a) :
    Guarded exec ok as s := by
  induction as generalizing s with
  | nil => trivial
  | cons a as ih =>
    refine ⟨hall a (by simp) s,?_⟩
    cases exec s a with
    | none => trivial
    | some m => exact ih m (fun b hb => hall b (by simp [hb]))

end

lemma run_preserves (exec : S → A → Option S) (Inv : S → Prop)
    (hstep : ∀ s a u, Inv s → exec s a = some u → Inv u)
    (as : List A) (s u : S) (hs : Inv s) (hrun : run exec as s = some u) : Inv u := by
  induction as generalizing s with
  | nil => exact Option.some.inj hrun ▸ hs
  | cons a as ih =>
    obtain ⟨m,hm,hrest⟩ := run_cons exec a as s u hrun
    exact ih m (hstep s a m hs hm) hrest

section

variable (exec : S → A → Option S) (next : S → A → S)

/-- A run in which every action is enabled. -/
def runTotal (as : List A) (s : S) : S := as.foldl next s

lemma run_total (hexec : ∀ s a, exec s a = some (next s a)) (as : List A) (s : S) :
    run exec as s = some (runTotal next as s) := by
  induction as generalizing s with
  | nil => rfl
  | cons a as ih =>
    rw [run,hexec,Option.bind_some,ih]
    rfl

lemma run_to_last (hexec : ∀ s a, exec s a = some (next s a)) (ok : S → A → Prop)
    (Inv : S → Prop) (hstep : ∀ s a, Inv s → ok s a → Inv (next s a)) (as : List A) (a : A) (s : S)
    (hs : Inv s) (hok : Guarded exec ok (as++[a]) s) :
    ∃ u, run exec as s = some u ∧ Inv u ∧ ok u a := by
  have hrun := run_total exec next hexec as s
  obtain ⟨hfirst,hlast⟩ := guarded_append exec ok as [a] s _ hok hrun
  refine ⟨_,hrun,?_,hlast.1⟩
  refine run_invariant exec ok Inv ?_ as s _ hs hfirst hrun
  intro s b u hs hb hu
  rw [hexec] at hu
  cases hu
  exact hstep s b hs hb

lemma run_work (kind : A → Bool) (Stage : ℕ → S → Prop)
    (hstep : ∀ n s a, Stage n s → ∃ k, Stage k (next s a) ∧ k ≤ n ∧ (kind a = true → k ≤ n-1))
    (as : List A) {n : ℕ} {s : S} (hs : Stage n s) :
    ∃ k, Stage k (runTotal next as s) ∧ k ≤ n-as.countP kind := by
  induction as generalizing n s with
  | nil => exact ⟨n,hs,le_refl _⟩
  | cons a as ih =>
    obtain ⟨m,hm,hle,hless⟩ := hstep n s a hs
    obtain ⟨k,hk,hkm⟩ := ih hm
    refine ⟨k,hk,?_⟩
    cases ha : kind a with
    | true =>
      have := hless ha
      rw [List.countP_cons_of_pos ha]
      omega
    | false =>
      rw [List.countP_cons_of_neg (by simp [ha])]
      omega

end

section

variable {E : Type} (f : S → A → Except E S)

lemma foldlM_preserves (P : S → Prop) (as : List A)
    (hstep : ∀ s a u, a ∈ as → P s → f s a = .ok u → P u) (s u : S) (hs : P s)
    (hrun : as.foldlM f s = .ok u) : P u := by
  induction as generalizing s with
  | nil =>
    cases hrun
    exact hs
  | cons a as ih =>
    rw [List.foldlM_cons] at hrun
    cases hf : f s a with
    | error e =>
      rw [hf] at hrun
      cases hrun
    | ok m =>
      rw [hf] at hrun
      exact ih (fun s b u hb => hstep s b u (by simp [hb])) m (hstep s a m (by simp) hs hf) hrun

lemma foldlM_total (P : S → Prop) (as : List A)
    (hstep : ∀ s a, a ∈ as → P s → ∃ u, f s a = .ok u ∧ P u) (s : S) (hs : P s) :
    ∃ u, as.foldlM f s = .ok u ∧ P u := by
  induction as generalizing s with
  | nil => exact ⟨s,rfl,hs⟩
  | cons a as ih =>
    obtain ⟨m,hm,hP⟩ := hstep s a (by simp) hs
    obtain ⟨u,hu,hPu⟩ := ih (fun s b hb => hstep s b (by simp [hb])) m hP
    exact ⟨u,by rw [List.foldlM_cons,hm]; exact hu,hPu⟩

end

/-- What a decision procedure finds of the result on fixed inputs. -/
lemma exists_checked {α : Type} (o : Option α) (P : α → Prop) [DecidablePred P]
    (h : o.any (fun a => decide (P a)) = true) : ∃ a, o = some a ∧ P a := by
  cases o with
  | none => cases h
  | some a => exact ⟨a,rfl,of_decide_eq_true h⟩

/-! A loop whose body answers or goes on to another place. -/

section

variable {C R : Type} {step : C → R ⊕ C}

def iterate (step : C → R ⊕ C) : ℕ → C → Option R
  | 0, _ => none
  | n+1, c =>
      match step c with
      | .inl r => some r
      | .inr next => iterate step n next

lemma iterate_done {c : C} {r : R} (h : step c = .inl r) (n : ℕ) :
    iterate step (n+1) c = some r := by
  rw [iterate,h]

lemma iterate_next {c next : C} (h : step c = .inr next) (n : ℕ) :
    iterate step (n+1) c = iterate step n next := by
  rw [iterate,h]

lemma iterate_mono {n m : ℕ} {c : C} {r : R} (h : iterate step n c = some r) (hle : n ≤ m) :
    iterate step m c = some r := by
  induction n generalizing m c with
  | zero => cases h
  | succ n ih =>
    obtain ⟨m,rfl⟩ : ∃ k, m = k+1 := ⟨m-1,by omega⟩
    cases hs : step c with
    | inl v =>
      rw [iterate_done hs] at h ⊢
      exact h
    | inr next =>
      rw [iterate_next hs] at h ⊢
      exact ih h (by omega)

end

/-! A call that sees the head of a queue, or sees it empty. -/

section

variable {α : Type} {visible : Bool} {queue : List α}

def see (visible : Bool) (queue : List α) : Option α := if visible then queue.head? else none

def left (used : Bool) (queue : List α) : List α := if used then queue.tail else queue

lemma see_none (h : see visible queue = none) : left visible queue = queue := by
  cases visible with
  | false => rfl
  | true => cases queue with
    | nil => rfl
    | cons a as => cases h

lemma see_some {a : α} (h : see visible queue = some a) : queue = a::left visible queue := by
  cases visible with
  | false => cases h
  | true => cases queue with
    | nil => cases h
    | cons b bs =>
      cases h
      rfl

lemma see_cons {a : α} (h : see visible queue = some a) : ∃ rest, queue = a::rest :=
  ⟨_,see_some h⟩

end

end Clio.Machine
