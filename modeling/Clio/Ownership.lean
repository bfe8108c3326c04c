import Mathlib

/-!
# Resources and their holders

Every resource of a class is idle or held by one place. The idle ones stand in a list without
repetition.
-/

namespace Clio.Ownership

open Function

variable {F X : Type} {A : F → Prop} {idle idle' : List F} {held : X → Option F}

structure Owned (A : F → Prop) (idle : List F) (held : X → Option F) : Prop where
  nodup : idle.Nodup
  apart : ∀ x f, held x = some f → f ∉ idle
  single : ∀ x y f, held x = some f → held y = some f → x = y
  whole : ∀ f, A f ↔ f ∈ idle ∨ ∃ x, held x = some f

lemma owned_perm (h : Owned A idle held) (hp : idle.Perm idle') : Owned A idle' held where
  nodup := hp.nodup_iff.mp h.nodup
  apart x f hx hf := h.apart x f hx (hp.mem_iff.mpr hf)
  single := h.single
  whole f := by rw [h.whole f,hp.mem_iff]

lemma owned_mem (h : Owned A idle held) {f : F} (hf : f ∈ idle) : A f := (h.whole f).mpr (.inl hf)

lemma owned_held (h : Owned A idle held) {x : X} {f : F} (hx : held x = some f) : A f :=
  (h.whole f).mpr (.inr ⟨x,hx⟩)

variable [DecidableEq X]

lemma owned_take {f : F} {x : X} (h : Owned A (f::idle) held) (hx : held x = none) :
    Owned A idle (update held x (some f)) := by
  obtain ⟨hf,hnodup⟩ := List.nodup_cons.mp h.nodup
  refine ⟨hnodup,?_,?_,?_⟩
  · intro y g hy
    by_cases hyx : y = x
    · subst hyx
      rw [update_self] at hy
      cases hy
      exact hf
    · rw [update_of_ne hyx] at hy
      exact fun hg => h.apart y g hy (List.mem_cons_of_mem f hg)
  · intro y z g hy hz
    by_cases hyx : y = x <;> by_cases hzx : z = x
    · rw [hyx,hzx]
    · rw [hyx,update_self] at hy
      rw [update_of_ne hzx] at hz
      cases hy
      exact absurd (List.mem_cons_self) (h.apart z f hz)
    · rw [hzx,update_self] at hz
      rw [update_of_ne hyx] at hy
      cases hz
      exact absurd (List.mem_cons_self) (h.apart y f hy)
    · rw [update_of_ne hyx] at hy
      rw [update_of_ne hzx] at hz
      exact h.single y z g hy hz
  · intro g
    rw [h.whole g,List.mem_cons]
    constructor
    · rintro ((rfl | hg) | ⟨y,hy⟩)
      · exact .inr ⟨x,update_self ..⟩
      · exact .inl hg
      · refine .inr ⟨y,?_⟩
        rw [update_of_ne (by rintro rfl; rw [hx] at hy; cases hy),hy]
    · rintro (hg | ⟨y,hy⟩)
      · exact .inl (.inr hg)
      · by_cases hyx : y = x
        · rw [hyx,update_self] at hy
          cases hy
          exact .inl (.inl rfl)
        · rw [update_of_ne hyx] at hy
          exact .inr ⟨y,hy⟩

lemma owned_give {f : F} {x : X} (h : Owned A idle held) (hx : held x = some f) :
    Owned A (f::idle) (update held x none) := by
  refine ⟨List.nodup_cons.mpr ⟨h.apart x f hx,h.nodup⟩,?_,?_,?_⟩
  · intro y g hy hg
    by_cases hyx : y = x
    · rw [hyx,update_self] at hy
      cases hy
    · rw [update_of_ne hyx] at hy
      rcases List.mem_cons.mp hg with rfl | hg
      · exact hyx (h.single y x g hy hx)
      · exact h.apart y g hy hg
  · intro y z g hy hz
    by_cases hyx : y = x
    · rw [hyx,update_self] at hy
      cases hy
    by_cases hzx : z = x
    · rw [hzx,update_self] at hz
      cases hz
    rw [update_of_ne hyx] at hy
    rw [update_of_ne hzx] at hz
    exact h.single y z g hy hz
  · intro g
    rw [h.whole g,List.mem_cons]
    constructor
    · rintro (hg | ⟨y,hy⟩)
      · exact .inl (.inr hg)
      · by_cases hyx : y = x
        · rw [hyx,hx] at hy
          cases hy
          exact .inl (.inl rfl)
        · exact .inr ⟨y,by rw [update_of_ne hyx,hy]⟩
    · rintro ((rfl | hg) | ⟨y,hy⟩)
      · exact .inr ⟨x,hx⟩
      · exact .inl hg
      · by_cases hyx : y = x
        · rw [hyx,update_self] at hy
          cases hy
        · rw [update_of_ne hyx] at hy
          exact .inr ⟨y,hy⟩

end Clio.Ownership
