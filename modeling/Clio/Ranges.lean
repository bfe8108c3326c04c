import Mathlib

/-!
# Sorted lists of labelled ranges

A list of disjoint half-open ranges in increasing order stands for a partial map from numbers to
labels.
-/

namespace Clio.Ranges

open List

structure Range (L : Type) where
  lo : ℕ
  hi : ℕ
  label : L
  deriving DecidableEq, Repr

variable {L : Type}

def Has (l : List (Range L)) (x : ℕ) (f : L) : Prop :=
  ∃ r ∈ l, r.lo ≤ x ∧ x < r.hi ∧ r.label = f

def covered (l : List (Range L)) : Set ℕ := {x | ∃ f, Has l x f}

def Sorted (l : List (Range L)) : Prop :=
  (∀ r ∈ l, r.lo < r.hi) ∧ l.Pairwise fun a b => a.hi ≤ b.lo

/-- The parts of a range outside `[s, e)`. -/
def minus (s e : ℕ) (r : Range L) : List (Range L) :=
  (if r.lo < min r.hi s then [⟨r.lo,min r.hi s,r.label⟩] else [])++
    if max r.lo e < r.hi then [⟨max r.lo e,r.hi,r.label⟩] else []

def cut (s e : ℕ) (l : List (Range L)) : List (Range L) := l.flatMap (minus s e)

/-- The part of a range inside `[s, e)`. -/
def clip (s e : ℕ) (r : Range L) : Option (Range L) :=
  if max r.lo s < min r.hi e then some ⟨max r.lo s,min r.hi e,r.label⟩ else none

def inter (s e : ℕ) (l : List (Range L)) : List (Range L) := l.filterMap (clip s e)

def Inside (s e : ℕ) (l : List (Range L)) : Prop := ∃ r ∈ l, r.lo < s ∧ e < r.hi

def enterBetween (l₁ l₂ : List (Range L)) (s e : ℕ) (f : L) : List (Range L) :=
  match l₁.getLast?.filter (fun p => p.hi = s), l₂.head?.filter (fun n => n.lo = e) with
  | some p, some n => l₁.dropLast++⟨p.lo,n.hi,p.label⟩::l₂.tail
  | some p, none => l₁.dropLast++⟨p.lo,e,p.label⟩::l₂
  | none, some n => l₁++⟨s,n.hi,n.label⟩::l₂.tail
  | none, none => l₁++⟨s,e,f⟩::l₂

def enter (s e : ℕ) (f : L) (l : List (Range L)) : List (Range L) :=
  enterBetween (l.takeWhile fun r => r.hi ≤ s) (l.dropWhile fun r => r.hi ≤ s) s e f

lemma has_append (l₁ l₂ : List (Range L)) (x : ℕ) (f : L) :
    Has (l₁++l₂) x f ↔ Has l₁ x f ∨ Has l₂ x f := by
  simp only [Has,mem_append]
  grind

@[simp] lemma has_nil (x : ℕ) (f : L) : ¬Has [] x f := by
  simp [Has]

lemma has_cons (r : Range L) (l : List (Range L)) (x : ℕ) (f : L) :
    Has (r::l) x f ↔ (r.lo ≤ x ∧ x < r.hi ∧ r.label = f) ∨ Has l x f := by
  simp [Has]

lemma has_minus (s e : ℕ) (r : Range L) (x : ℕ) (f : L) (hse : s ≤ e) :
    Has (minus s e r) x f ↔ Has [r] x f ∧ ¬(s ≤ x ∧ x < e) := by
  rw [minus,has_append]
  split <;> split <;> simp only [has_cons,has_nil,or_false,false_or,false_iff] <;> grind

lemma has_cut (s e : ℕ) (l : List (Range L)) (x : ℕ) (f : L) (hse : s ≤ e) :
    Has (cut s e l) x f ↔ Has l x f ∧ ¬(s ≤ x ∧ x < e) := by
  induction l with
  | nil => simp [cut]
  | cons r l ih =>
    rw [cut,flatMap_cons,has_append,has_minus s e r x f hse,← cut,ih, has_cons r l,has_cons r []]
    simp only [has_nil,or_false]
    tauto

lemma has_inter (s e : ℕ) (l : List (Range L)) (x : ℕ) (f : L) :
    Has (inter s e l) x f ↔ Has l x f ∧ s ≤ x ∧ x < e := by
  induction l with
  | nil => simp [inter]
  | cons r l ih =>
    rw [inter,filterMap_cons,has_cons]
    by_cases h : max r.lo s < min r.hi e
    · rw [clip,if_pos h,has_cons,← inter,ih]
      grind
    · rw [clip,if_neg h,← inter,ih]
      grind

lemma covered_cut (s e : ℕ) (l : List (Range L)) (hse : s ≤ e) :
    covered (cut s e l) = covered l \ Set.Ico s e := by
  ext x
  simp only [covered,Set.mem_ofPred_eq,Set.mem_sdiff,Set.mem_Ico,has_cut s e l x _ hse]
  grind

lemma sorted_append (l₁ l₂ : List (Range L)) :
    Sorted (l₁++l₂) ↔ Sorted l₁ ∧ Sorted l₂ ∧ ∀ a ∈ l₁, ∀ b ∈ l₂, a.hi ≤ b.lo := by
  simp only [Sorted,pairwise_append,mem_append]
  grind

lemma sorted_cons (r : Range L) (l : List (Range L)) :
    Sorted (r::l) ↔ r.lo < r.hi ∧ Sorted l ∧ ∀ b ∈ l, r.hi ≤ b.lo := by
  simp only [Sorted,pairwise_cons,mem_cons]
  grind

lemma sorted_node (a b : List (Range L)) (r : Range L) :
    Sorted (a++r::b) ↔ Sorted a ∧ Sorted b ∧ r.lo < r.hi ∧ (∀ x ∈ a, x.hi ≤ r.lo) ∧
      ∀ y ∈ b, r.hi ≤ y.lo := by
  rw [sorted_append,sorted_cons]
  simp only [mem_cons,forall_eq_or_imp]
  constructor
  · rintro ⟨ha,⟨hr,hb,hrb⟩,hab⟩
    exact ⟨ha,hb,hr,fun x hx => (hab x hx).1,hrb⟩
  · rintro ⟨ha,hb,hr,har,hrb⟩
    refine ⟨ha,⟨hr,hb,hrb⟩,fun x hx => ⟨har x hx,fun y hy => ?_⟩⟩
    have := har x hx
    have := hrb y hy
    omega

lemma mem_minus (s e : ℕ) (r p : Range L) (h : p ∈ minus s e r) : r.lo ≤ p.lo ∧ p.hi ≤ r.hi := by
  simp only [minus,mem_append,mem_ite_nil_right,mem_singleton] at h
  grind

lemma mem_cut (s e : ℕ) (l : List (Range L)) (p : Range L) (h : p ∈ cut s e l) :
    ∃ r ∈ l, r.lo ≤ p.lo ∧ p.hi ≤ r.hi := by
  obtain ⟨r,hr,hp⟩ := mem_flatMap.mp h
  exact ⟨r,hr,mem_minus s e r p hp⟩

lemma cut_ends {P : ℕ → Prop} (s e : ℕ) (l : List (Range L)) (hs : P s) (he : P e)
    (h : ∀ r ∈ l, P r.lo ∧ P r.hi) : ∀ r ∈ cut s e l, P r.lo ∧ P r.hi := by
  intro r hr
  obtain ⟨q,hq,hr⟩ := mem_flatMap.mp hr
  obtain ⟨hlo,hhi⟩ := h q hq
  simp only [minus,mem_append,mem_ite_nil_right,mem_singleton] at hr
  rcases hr with ⟨-,rfl⟩ | ⟨-,rfl⟩
  · exact ⟨hlo,by rcases min_choice q.hi s with hm | hm <;> simpa [hm]⟩
  · exact ⟨by rcases max_choice q.lo e with hm | hm <;> simpa [hm],hhi⟩

lemma cut_outside (s e : ℕ) (l : List (Range L)) (hse : s ≤ e) (hne : ∀ r ∈ l, r.lo < r.hi)
    (h : ∀ r ∈ l, r.hi ≤ s ∨ e ≤ r.lo) : cut s e l = l := by
  induction l with
  | nil => rfl
  | cons r l ih =>
    have hr := hne r (by simp)
    have hm : minus s e r = [r] := by
      rcases h r (by simp) with hs | he
      · rw [minus,if_pos (by omega),if_neg (by omega),min_eq_left hs]
        rfl
      · rw [minus,if_neg (by omega),if_pos (by omega),max_eq_left he]
        rfl
    rw [cut,flatMap_cons,hm,← cut,ih (fun q hq => hne q (by simp [hq]))
      (fun q hq => h q (by simp [hq]))]
    rfl

lemma cut_append (s e : ℕ) (l₁ l₂ : List (Range L)) :
    cut s e (l₁++l₂) = cut s e l₁++cut s e l₂ := List.flatMap_append

lemma inter_append (s e : ℕ) (l₁ l₂ : List (Range L)) :
    inter s e (l₁++l₂) = inter s e l₁++inter s e l₂ := List.filterMap_append

lemma inter_outside (s e : ℕ) (l : List (Range L)) (h : ∀ r ∈ l, r.hi ≤ s ∨ e ≤ r.lo) :
    inter s e l = [] := by
  rw [inter,filterMap_eq_nil_iff]
  intro r hr
  have := h r hr
  exact if_neg (by omega)

lemma cut_inside (s e : ℕ) (l : List (Range L)) (h : ∀ r ∈ l, s ≤ r.lo ∧ r.hi ≤ e) :
    cut s e l = [] := by
  rw [cut,flatMap_eq_nil_iff]
  intro r hr
  have := h r hr
  rw [minus,if_neg (by omega),if_neg (by omega)]
  rfl

lemma inter_inside (s e : ℕ) (l : List (Range L)) (hn : ∀ r ∈ l, r.lo < r.hi)
    (h : ∀ r ∈ l, s ≤ r.lo ∧ r.hi ≤ e) : inter s e l = l := by
  induction l with
  | nil => rfl
  | cons r l ih =>
    have hr := hn r (by simp)
    have hse := h r (by simp)
    rw [inter,filterMap_cons,clip,if_pos (by omega),max_eq_left hse.1,min_eq_left hse.2,
      ← inter,ih (fun q hq => hn q (by simp [hq])) (fun q hq => h q (by simp [hq]))]

lemma cut_cons (s e : ℕ) (r : Range L) (l : List (Range L)) :
    cut s e (r::l) = minus s e r++cut s e l := rfl

lemma minus_crossing (s e : ℕ) (r : Range L) (hs : s ≤ r.lo) (hlo : r.lo ≤ e) (he : e < r.hi) :
    minus s e r = [⟨e,r.hi,r.label⟩] := by
  rw [minus,if_neg (by omega),if_pos (by omega),max_eq_right hlo]
  rfl

lemma clip_crossing (s e : ℕ) (r : Range L) (hs : s ≤ r.lo) (hlo : r.lo < e) (he : e < r.hi) :
    clip s e r = some ⟨r.lo,e,r.label⟩ := by
  rw [clip,if_pos (by omega),max_eq_left hs,min_eq_right he.le]

section

variable (a b : List (Range L)) (lo hi s e : ℕ) (f : L)

lemma has_halves (hlo : lo < s) (hhi : s < hi) (x : ℕ) (g : L) :
    Has (a++⟨lo,s,f⟩::⟨s,hi,f⟩::b) x g ↔ Has (a++⟨lo,hi,f⟩::b) x g := by
  simp only [has_append,has_cons]
  grind

lemma cut_halves (hlo : lo < s) (hhi : s < hi) (he : hi ≤ e) :
    cut s e (a++⟨lo,s,f⟩::⟨s,hi,f⟩::b) = cut s e (a++⟨lo,hi,f⟩::b) := by
  simp only [cut_append,cut_cons,minus]
  rw [if_pos (by simp; omega),if_neg (by simp; omega),if_neg (by simp),if_neg (by simp; omega),
    if_pos (by simp; omega),if_neg (by simp; omega),min_self,min_eq_right hhi.le]
  rfl

lemma inter_halves (hlo : lo < s) (hhi : s < hi) (he : hi ≤ e) :
    inter s e (a++⟨lo,s,f⟩::⟨s,hi,f⟩::b) = inter s e (a++⟨lo,hi,f⟩::b) := by
  simp only [inter,filterMap_append,filterMap_cons,clip]
  rw [if_neg (by simp),if_pos (by simp; omega),if_pos (by simp; omega),max_self,
    max_eq_right hlo.le]

end

section

variable (a b : List (Range L)) (p n : Range L) (s e : ℕ) (f : L)

lemma enter_both (hp : p.hi = s) (hn : n.lo = e) :
    enterBetween (a++[p]) (n::b) s e f = a++⟨p.lo,n.hi,p.label⟩::b := by
  simp [enterBetween,Option.filter,hp,hn]

lemma enter_low (hp : p.hi = s) (hn : ∀ n ∈ b.head?, n.lo ≠ e) :
    enterBetween (a++[p]) b s e f = a++⟨p.lo,e,p.label⟩::b := by
  have hb : b.head?.filter (fun n => n.lo = e) = none := by
    rw [Option.filter_eq_none_iff]
    simpa using hn
  simp [enterBetween,Option.filter_some,hp,hb]

lemma enter_high (hp : ∀ p ∈ a.getLast?, p.hi ≠ s) (hn : n.lo = e) :
    enterBetween a (n::b) s e f = a++⟨s,n.hi,n.label⟩::b := by
  have ha : a.getLast?.filter (fun p => p.hi = s) = none := by
    rw [Option.filter_eq_none_iff]
    simpa using hp
  simp [enterBetween,Option.filter_some,ha,hn]

lemma enter_new (hp : ∀ p ∈ a.getLast?, p.hi ≠ s) (hn : ∀ n ∈ b.head?, n.lo ≠ e) :
    enterBetween a b s e f = a++⟨s,e,f⟩::b := by
  have ha : a.getLast?.filter (fun p => p.hi = s) = none := by
    rw [Option.filter_eq_none_iff]
    simpa using hp
  have hb : b.head?.filter (fun n => n.lo = e) = none := by
    rw [Option.filter_eq_none_iff]
    simpa using hn
  simp [enterBetween,ha,hb]

lemma enter_cases :
    (∃ a' p b' n, a = a'++[p] ∧ b = n::b' ∧ p.hi = s ∧ n.lo = e ∧
      enterBetween a b s e f = a'++⟨p.lo,n.hi,p.label⟩::b') ∨
    (∃ a' p, a = a'++[p] ∧ p.hi = s ∧ enterBetween a b s e f = a'++⟨p.lo,e,p.label⟩::b) ∨
    (∃ b' n, b = n::b' ∧ n.lo = e ∧ enterBetween a b s e f = a++⟨s,n.hi,n.label⟩::b') ∨
    enterBetween a b s e f = a++⟨s,e,f⟩::b := by
  have hlow : (∃ a' p, a = a'++[p] ∧ p.hi = s) ∨ ∀ p ∈ a.getLast?, p.hi ≠ s := by
    rcases eq_nil_or_concat a with rfl | ⟨a',p,rfl⟩
    · exact .inr (by simp)
    · by_cases hp : p.hi = s
      · exact .inl ⟨a',p,by simp,hp⟩
      · exact .inr (by simpa using hp)
  have hhigh : (∃ b' n, b = n::b' ∧ n.lo = e) ∨ ∀ n ∈ b.head?, n.lo ≠ e := by
    cases b with
    | nil => exact .inr (by simp)
    | cons n b' =>
      by_cases hn : n.lo = e
      · exact .inl ⟨b',n,rfl,hn⟩
      · exact .inr (by simpa using hn)
  rcases hlow with ⟨a',p,rfl,hp⟩ | hlow
  · rcases hhigh with ⟨b',n,rfl,hn⟩ | hhigh
    · exact .inl ⟨a',p,b',n,rfl,rfl,hp,hn,enter_both a' b' p n s e f hp hn⟩
    · exact .inr (.inl ⟨a',p,rfl,hp,enter_low a' b p s e f hp hhigh⟩)
  · rcases hhigh with ⟨b',n,rfl,hn⟩ | hhigh
    · exact .inr (.inr (.inl ⟨b',n,rfl,hn,enter_high a b' n s e f hlow hn⟩))
    · exact .inr (.inr (.inr (enter_new a b s e f hlow hhigh)))

end

lemma mem_covered (l : List (Range L)) (x : ℕ) :
    x ∈ covered l ↔ ∃ r ∈ l, r.lo ≤ x ∧ x < r.hi := by
  constructor
  · rintro ⟨f,r,hr,hlo,hhi,-⟩
    exact ⟨r,hr,hlo,hhi⟩
  · rintro ⟨r,hr,hlo,hhi⟩
    exact ⟨r.label,r,hr,hlo,hhi,rfl⟩

lemma covered_append (a b : List (Range L)) (x : ℕ) :
    x ∈ covered (a++b) ↔ x ∈ covered a ∨ x ∈ covered b := by
  simp only [mem_covered,mem_append,or_and_right,exists_or]

lemma covered_cons (r : Range L) (l : List (Range L)) (x : ℕ) :
    x ∈ covered (r::l) ↔ (r.lo ≤ x ∧ x < r.hi) ∨ x ∈ covered l := by
  simp only [mem_covered,mem_cons,or_and_right,exists_or,exists_eq_left]

lemma covered_nil (x : ℕ) : x ∉ covered ([] : List (Range L)) := by
  simp [mem_covered]

def Free (l : List (Range L)) (s e : ℕ) : Prop := ∀ r ∈ l, r.hi ≤ s ∨ e ≤ r.lo

section

variable (l : List (Range L)) (s e : ℕ) (f : L)

lemma enter_split (a b : List (Range L)) (hse : s < e) (hs : Sorted (a++b))
    (ha : ∀ r ∈ a, r.hi ≤ s) (hb : ∀ r ∈ b, e ≤ r.lo) :
    enter s e f (a++b) = enterBetween a b s e f := by
  have htake : (a++b).takeWhile (fun r => r.hi ≤ s) = a ∧
      (a++b).dropWhile (fun r => r.hi ≤ s) = b := by
    rw [takeWhile_append_of_pos (by simpa using ha), dropWhile_append_of_pos (by simpa using ha)]
    cases b with
    | nil => simp
    | cons r b =>
      have hlo := hb r (by simp)
      have hr := hs.1 r (by simp)
      rw [takeWhile_cons_of_neg (by simp; omega),dropWhile_cons_of_neg (by simp; omega)]
      simp
  rw [enter,htake.1,htake.2]

lemma free_split (hs : Sorted l) (hfree : Free l s e) :
    ∃ a b, l = a++b ∧ (∀ r ∈ a, r.hi ≤ s) ∧ ∀ r ∈ b, e ≤ r.lo := by
  refine ⟨l.takeWhile (fun r => r.hi ≤ s),l.dropWhile (fun r => r.hi ≤ s),
    (takeWhile_append_dropWhile).symm,?_,?_⟩
  · intro r hr
    simpa using mem_takeWhile_imp hr
  · intro r hr
    -- everything behind the first range that ends above `s` ends above `s`
    cases hd : l.dropWhile (fun r => r.hi ≤ s) with
    | nil =>
      rw [hd] at hr
      cases hr
    | cons q rest =>
      have hq : ¬q.hi ≤ s := by
        have := List.head?_dropWhile_not (fun r : Range L => decide (r.hi ≤ s)) l
        rw [hd] at this
        simpa using this
      have hsuf : l.dropWhile (fun r => r.hi ≤ s) <:+ l := dropWhile_suffix _
      obtain ⟨pre,hpre⟩ := hsuf
      rw [hd] at hpre hr
      rw [← hpre,sorted_append,sorted_cons] at hs
      have hrl : r ∈ l := by rw [← hpre]; simp only [mem_append]; exact .inr hr
      rcases hfree r hrl with h | h
      · rcases mem_cons.mp hr with rfl | hr'
        · exact absurd h hq
        · have h1 := hs.2.1.2.2 r hr'
          have h2 := hs.2.1.2.1.1 r hr'
          omega
      · exact h

variable {l s e f}

lemma covered_enter (hs : Sorted l) (hfree : Free l s e) (hse : s < e) :
    covered (enter s e f l) = covered l ∪ Set.Ico s e := by
  obtain ⟨a,b,rfl,ha,hb⟩ := free_split l s e hs hfree
  rw [enter_split s e f a b hse hs ha hb]
  ext x
  have hne := hs.1
  rw [Set.mem_union,Set.mem_Ico]
  rcases enter_cases a b s e f with ⟨a',p,b',n,rfl,rfl,hp,hn,h⟩ | ⟨a',p,rfl,hp,h⟩ |
    ⟨b',n,rfl,hn,h⟩ | h
  · have h1 := hne p (by simp)
    have h2 := hne n (by simp)
    rw [h]
    simp only [covered_append,covered_cons,covered_nil]
    grind
  · have h1 := hne p (by simp)
    rw [h]
    simp only [covered_append,covered_cons,covered_nil]
    grind
  · have h2 := hne n (by simp)
    rw [h]
    simp only [covered_append,covered_cons]
    grind
  · rw [h]
    simp only [covered_append,covered_cons]
    grind

lemma enter_ends {P Q : ℕ → Prop} (hs : Sorted l) (hfree : Free l s e) (hse : s < e)
    (hP : P s) (hQ : Q e) (h : ∀ r ∈ l, P r.lo ∧ Q r.hi) :
    ∀ r ∈ enter s e f l, P r.lo ∧ Q r.hi := by
  obtain ⟨a,b,rfl,ha,hb⟩ := free_split l s e hs hfree
  rw [enter_split s e f a b hse hs ha hb]
  intro r hr
  rcases enter_cases a b s e f with ⟨a',p,b',n,rfl,rfl,hp,hn,hc⟩ | ⟨a',p,rfl,hp,hc⟩ |
    ⟨b',n,rfl,hn,hc⟩ | hc
  · rw [hc] at hr
    simp only [mem_append,mem_cons,not_mem_nil,or_false] at hr h
    grind
  · rw [hc] at hr
    simp only [mem_append,mem_cons,not_mem_nil,or_false] at hr h
    grind
  · rw [hc] at hr
    simp only [mem_append,mem_cons] at hr h
    grind
  · rw [hc] at hr
    simp only [mem_append,mem_cons] at hr h
    grind

end

/-- One range more, less one for every side on which it touches another. -/
lemma enter_length (a b : List (Range L)) (s e : ℕ) (f : L) (hse : s < e) (hs : Sorted (a++b))
    (ha : ∀ r ∈ a, r.hi ≤ s) (hb : ∀ r ∈ b, e ≤ r.lo) :
    (enterBetween a b s e f).length+(if ∃ r ∈ a++b, r.hi = s then 1 else 0)+
      (if ∃ r ∈ a++b, r.lo = e then 1 else 0) = a.length+b.length+1 := by
  have hlow : (∃ r ∈ a++b, r.hi = s) ↔ ∃ a' p, a = a'++[p] ∧ p.hi = s := by
    rcases eq_nil_or_concat a with rfl | ⟨a',p,rfl⟩
    · simp [Sorted] at *
      grind
    · simp [Sorted,pairwise_append] at *
      grind
  have hhigh : (∃ r ∈ a++b, r.lo = e) ↔ ∃ n b', b = n::b' ∧ n.lo = e := by
    cases b with
    | nil =>
      simp [Sorted] at *
      grind
    | cons n b =>
      simp [Sorted,pairwise_append] at *
      grind
  by_cases h1 : ∃ r ∈ a++b, r.hi = s <;> by_cases h2 : ∃ r ∈ a++b, r.lo = e
  · obtain ⟨a,p,rfl,hp⟩ := hlow.mp h1
    obtain ⟨n,b,rfl,hn⟩ := hhigh.mp h2
    rw [if_pos h1,if_pos h2,enter_both a b p n s e f hp hn]
    simp
    omega
  · obtain ⟨a,p,rfl,hp⟩ := hlow.mp h1
    rw [if_pos h1,if_neg h2,enter_low a b p s e f hp (by grind)]
    simp
    omega
  · obtain ⟨n,b,rfl,hn⟩ := hhigh.mp h2
    rw [if_neg h1,if_pos h2,enter_high a b n s e f (by grind) hn]
    simp
  · rw [if_neg h1,if_neg h2,enter_new a b s e f (by grind) (by grind)]
    simp
    omega

end Clio.Ranges
