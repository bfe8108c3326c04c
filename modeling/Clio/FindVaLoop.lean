import Clio.FindVaRange
import Clio.Machine

/-!
# The search loop

The top-down search is a loop that goes down into promising subtrees and climbs back over parent
pointers.
-/

namespace Clio.FindVaLoop

open Rbtree Ranges VmArea VmRep FindVaRange Machine

inductive Cursor where
  | visit (c : Color) (l : RbTree ℕ) (x g : ℕ) (r : RbTree ℕ) (path : Path ℕ)
  | checkCurrent (c : Color) (l : RbTree ℕ) (x g : ℕ) (r : RbTree ℕ) (path : Path ℕ)
      (gapStart : ℕ)
  | climb (prev : RbTree ℕ) (path : Path ℕ)

section

variable (area : ℕ → VmAreaStruct) (length lowLimit highLimit : ℕ)

def step : Cursor → Walk ⊕ Cursor
  | .visit c l x g r path =>
      match r with
      | .node rc rl rx rg rr =>
          if gapStart area x ≤ highLimit ∧ rg ≥ length then
            .inr (.visit rc rl rx rg rr (⟨.right,c,x,g,l⟩::path))
          else .inr (.checkCurrent c l x g r path (gapStart area x))
      | .nil => .inr (.checkCurrent c l x g r path (gapStart area x))
  | .checkCurrent c l x g r path start =>
      if (area x).vmStart < lowLimit then .inl .fail
      else if start ≤ highLimit ∧ sub64 (area x).vmStart start ≥ length then
        .inl (.found start (area x).vmStart)
      else
        match l with
        | .node lc ll lx lg lr =>
            if lg ≥ length then .inr (.visit lc ll lx lg lr (⟨.left,c,x,g,r⟩::path))
            else .inr (.climb (.node c l x g r) path)
        | .nil => .inr (.climb (.node c l x g r) path)
  | .climb _ [] => .inl .fail
  | .climb prev (f::path) =>
      match f.dir with
      -- `prev` is the right child: its subtree is done, the node itself is next
      | .right => .inr (.checkCurrent f.color f.sibling f.elem f.aug prev path
          (gapStart area f.elem))
      | .left => .inr (.climb (.node f.color prev f.elem f.aug f.sibling) path)

def loop : ℕ → Cursor → Option Walk := iterate (step area length lowLimit highLimit)

variable {area length lowLimit highLimit}

def After (area : ℕ → VmAreaStruct) (length lowLimit highLimit k : ℕ) (t : RbTree ℕ)
    (path : Path ℕ) (v : Walk) : Walk → Prop
  | .exhausted => loop area length lowLimit highLimit k (.climb t path) = some v
  | w => v = w

/-- What `checkCurrent` answers for a node. -/
def checked (area : ℕ → VmAreaStruct) (length lowLimit highLimit : ℕ) (l : RbTree ℕ) (x : ℕ) :
    Walk :=
  if (area x).vmStart < lowLimit then .fail
  else if gapStart area x ≤ highLimit ∧ sub64 (area x).vmStart (gapStart area x) ≥ length then
    .found (gapStart area x) (area x).vmStart
  else if l.aug ≥ length then topdownWalk area length lowLimit highLimit l
  else .exhausted

def rightWalk (area : ℕ → VmAreaStruct) (length lowLimit highLimit x : ℕ) (r : RbTree ℕ) : Walk :=
  if gapStart area x ≤ highLimit ∧ r.aug ≥ length then topdownWalk area length lowLimit highLimit r
  else .exhausted

lemma walk_node (c : Color) (l : RbTree ℕ) (x g : ℕ) (r : RbTree ℕ) :
    topdownWalk area length lowLimit highLimit (.node c l x g r) =
      if rightWalk area length lowLimit highLimit x r ≠ .exhausted then
        rightWalk area length lowLimit highLimit x r
      else checked area length lowLimit highLimit l x := rfl

lemma after_child {k : ℕ} {t : RbTree ℕ} {path : Path ℕ} {v w : Walk} (f : Frame ℕ)
    (hf : f.dir = .left)
    (h : After area length lowLimit highLimit k (.node f.color t f.elem f.aug f.sibling) path v w) :
    After area length lowLimit highLimit (k+1) t (f::path) v w := by
  cases w with
  | exhausted =>
    show loop area length lowLimit highLimit (k+1) (.climb t (f::path)) = some v
    rw [loop,iterate_next (by rw [step,hf])]
    exact h
  | found s e | fail => exact h

def Walks (area : ℕ → VmAreaStruct) (length lowLimit highLimit : ℕ) (t : RbTree ℕ) : Prop :=
  match t with
  | .nil => True
  | .node c l x g r => ∀ k path v, After area length lowLimit highLimit k t path v
      (topdownWalk area length lowLimit highLimit t) →
        loop area length lowLimit highLimit (k+4*t.toList.length) (.visit c l x g r path) = some v

lemma check_walk (hlen : 0 < length) (c : Color) (l : RbTree ℕ) (x g : ℕ) (r : RbTree ℕ)
    (hl : Walks area length lowLimit highLimit l) (k : ℕ) (path : Path ℕ) (v : Walk)
    (h : After area length lowLimit highLimit k (.node c l x g r) path v
      (checked area length lowLimit highLimit l x)) :
    loop area length lowLimit highLimit (k+(4*l.toList.length+1)+1)
      (.checkCurrent c l x g r path (gapStart area x)) = some v := by
  unfold checked at h
  by_cases hlow : (area x).vmStart < lowLimit
  · rw [if_pos hlow] at h
    rw [show v = .fail from h]
    apply iterate_done
    exact if_pos hlow
  rw [if_neg hlow] at h
  by_cases hfit : gapStart area x ≤ highLimit ∧ sub64 (area x).vmStart (gapStart area x) ≥ length
  · rw [if_pos hfit] at h
    rw [show v = .found (gapStart area x) (area x).vmStart from h]
    apply iterate_done
    exact (if_neg hlow).trans (if_pos hfit)
  rw [if_neg hfit] at h
  cases l with
  | nil =>
    rw [if_neg (show ¬(RbTree.nil : RbTree ℕ).aug ≥ length from Nat.not_le.mpr hlen)] at h
    rw [loop,iterate_next (by rw [step,if_neg hlow,if_neg hfit])]
    exact iterate_mono h (by omega)
  | node lc ll lx lg lr =>
    by_cases hg : lg ≥ length
    · -- down to the left; what is exhausted there climbs to this node and on
      rw [if_pos (show (RbTree.node lc ll lx lg lr).aug ≥ length from hg)] at h
      rw [loop,iterate_next (by rw [step,if_neg hlow,if_neg hfit]; exact if_pos hg)]
      have hsub := hl (k+1) (⟨.left,c,x,g,r⟩::path) v (after_child ⟨.left,c,x,g,r⟩ rfl h)
      exact iterate_mono hsub (by omega)
    · rw [if_neg (show ¬(RbTree.node lc ll lx lg lr).aug ≥ length from hg)] at h
      rw [loop,iterate_next (by rw [step,if_neg hlow,if_neg hfit]; exact if_neg hg)]
      exact iterate_mono h (by omega)

lemma walks (hlen : 0 < length) (t : RbTree ℕ) : Walks area length lowLimit highLimit t := by
  induction t with
  | nil => trivial
  | node c l x g r ihl ihr =>
    intro k path v h
    have hsize : (RbTree.node c l x g r).toList.length = l.toList.length+r.toList.length+1 := by
      simp only [RbTree.toList,List.length_append,List.length_cons]
      omega
    rw [hsize,show k+4*(l.toList.length+r.toList.length+1) =
      (k+(4*l.toList.length+1)+1)+1+4*r.toList.length+1 by omega]
    rw [walk_node] at h
    have hcheck := check_walk hlen c l x g r ihl k path v
    have hskip : rightWalk area length lowLimit highLimit x r = .exhausted →
        loop area length lowLimit highLimit (k+(4*l.toList.length+1)+1)
          (.checkCurrent c l x g r path (gapStart area x)) = some v := by
      intro hright
      rw [hright,if_neg (by simp)] at h
      exact hcheck h
    cases r with
    | nil =>
      rw [loop,iterate_next (by rw [step])]
      refine iterate_mono (hskip ?_) (by omega)
      exact if_neg fun hn => Nat.not_le.mpr hlen hn.2
    | node rc rl rx rg rr =>
      by_cases hg : gapStart area x ≤ highLimit ∧ rg ≥ length
      · rw [loop,iterate_next (by rw [step]; exact if_pos hg)]
        have hright : rightWalk area length lowLimit highLimit x (.node rc rl rx rg rr) =
            topdownWalk area length lowLimit highLimit (.node rc rl rx rg rr) := if_pos hg
        apply ihr
        cases hw : topdownWalk area length lowLimit highLimit (.node rc rl rx rg rr) with
        | exhausted =>
          show loop area length lowLimit highLimit _ (.climb _ (⟨.right,c,x,g,l⟩::path)) = some v
          rw [loop,iterate_next (by rw [step])]
          exact hskip (hright.trans hw)
        | found s e | fail =>
          rw [hright,hw,if_pos (by simp)] at h
          exact h
      · rw [loop,iterate_next (by rw [step]; exact if_neg hg)]
        exact iterate_mono (hskip (if_neg hg)) (by omega)

lemma loop_root (hlen : 0 < length) (c : Color) (l : RbTree ℕ) (x g : ℕ) (r : RbTree ℕ) (fuel : ℕ)
    (hfuel : 4*(RbTree.node c l x g r).toList.length+1 ≤ fuel) :
    loop area length lowLimit highLimit fuel (.visit c l x g r []) =
      some (if topdownWalk area length lowLimit highLimit (.node c l x g r) = .exhausted then .fail
        else topdownWalk area length lowLimit highLimit (.node c l x g r)) := by
  refine iterate_mono (walks hlen (.node c l x g r) 1 [] _ ?_) (by omega)
  cases topdownWalk area length lowLimit highLimit (.node c l x g r) with
  | exhausted => exact iterate_done rfl 0
  | found s e | fail => rfl

end

def topdownLoop (fuel : ℕ) (v : VmaTree) (length low high : ℕ) : Option (Except Fault ℕ) :=
  if high < length then some (.ok errEnomem)
  else if low > high-length then some (.ok errEnomem)
  else if v.highestVmEnd ≤ high-length then some (topdownFound length low v.highestVmEnd high)
  else match v.mmRb with
    | .nil => some (.ok errEnomem)
    | .node c l x g r =>
        if g < length then some (.ok errEnomem)
        else (loop v.area length (low+length) (high-length) fuel (.visit c l x g r [])).map fun w =>
          match w with
          | .found start stop => topdownFound length low start (min stop high)
          | _ => .ok errEnomem

/-- `__find_va_range` of a vRegion that is searched from above. -/
def findVaRangeLoop (fuel : ℕ) (v : VregionInfo) (idx len : ℕ) : Option (Except Fault ℕ) :=
  if len > vregionSize then some (.ok errEnomem)
  else if idx ≥ nrVregions then some (.error .bug)
  else (topdownLoop fuel v.toVmaTree len
      (vregionToStartVa idx) (vregionToEndVa idx)).map fun res => do
    let addr ← res
    if addr > vregionToEndVa idx-len then return errEnomem else return addr

lemma topdown_loop_eq (fuel : ℕ) (v : VmaTree) (length low high : ℕ) (hlen : 0 < length)
    (hfuel : 4*v.mmRb.toList.length+1 ≤ fuel) :
    topdownLoop fuel v length low high = some (findVaRangeTopdown v length low high) := by
  unfold topdownLoop findVaRangeTopdown
  split_ifs
  · rfl
  · rfl
  · rfl
  · cases ht : v.mmRb with
    | nil => rfl
    | node c l x g r =>
      rw [ht] at hfuel
      simp only
      split_ifs with hg
      · rfl
      · rw [loop_root hlen c l x g r fuel hfuel]
        cases topdownWalk v.area length (low+length) (high-length) (.node c l x g r) <;> rfl

lemma find_va_range_loop_eq (fuel : ℕ) (v : VregionInfo) (idx len : ℕ) (hlen : 0 < len)
    (htop : v.flags &&& vregionTopdown ≠ 0) (hfuel : 4*v.mmRb.toList.length+1 ≤ fuel) :
    findVaRangeLoop fuel v idx len = some (findVaRange v idx len) := by
  unfold findVaRangeLoop findVaRange
  split_ifs
  · rfl
  · rfl
  · rw [topdown_loop_eq fuel v.toVmaTree len _ _ hlen hfuel]
    rfl

lemma free_ne_enomem {l : List (Range ℕ)} {idx len a : ℕ} (hidx : idx < nrVregions)
    (h : FreeAt l (vregionToStartVa idx) (vregionToEndVa idx) len a) : a ≠ errEnomem := by
  have hend : vregionToEndVa idx ≤ nrVregions*vregionSize := Nat.mul_le_mul_right vregionSize hidx
  have hmax : nrVregions*vregionSize < errEnomem := by decide
  have := h.2.1
  omega

/-- The search ends with the highest free range, or with `-ENOMEM` if there is none. -/
theorem search_returns_highest {v : VregionInfo} {ps : List ℕ} {idx len fuel : ℕ}
    (h : Rep v.toVmaTree ps) (htop : v.flags &&& vregionTopdown ≠ 0) (hidx : idx < nrVregions)
    (hlen : 0 < len) (hle : len ≤ vregionSize)
    (hin : ∀ r ∈ areas v.toVmaTree ps, r.hi ≤ vregionToEndVa idx) (hfuel : 4*ps.length+1 ≤ fuel) :
    ∃ addr, findVaRangeLoop fuel v idx len = some (.ok addr) ∧
      (addr = errEnomem ↔ ∀ a, ¬FreeAt (areas v.toVmaTree ps) (vregionToStartVa idx)
        (vregionToEndVa idx) len a) ∧
      (addr ≠ errEnomem → FreeAt (areas v.toVmaTree ps) (vregionToStartVa idx)
          (vregionToEndVa idx) len addr ∧
        ∀ a, FreeAt (areas v.toVmaTree ps) (vregionToStartVa idx) (vregionToEndVa idx) len a →
          a ≤ addr) := by
  obtain ⟨addr,hrun,hspec⟩ := topdown_exact h hin (end_va_lt hidx) hlen
  have hfind : findVaRange v idx len = .ok addr := by
    refine find_va_range_checked hidx.not_ge hle.not_gt rfl ((if_pos htop).trans hrun) ?_
    refine hspec.imp (fun hnone => hnone.1) (fun hfree => ?_)
    have := hfree.1.2.1
    omega
  refine ⟨addr,?_,?_,?_⟩
  · rw [find_va_range_loop_eq fuel v idx len hlen htop (h.tree ▸ hfuel),hfind]
  · rcases hspec with ⟨haddr,hnone⟩ | ⟨hfree,-⟩
    · exact ⟨fun _ => hnone,fun _ => haddr⟩
    · exact ⟨fun heq => absurd heq (free_ne_enomem hidx hfree),fun hno => absurd hfree (hno addr)⟩
  · intro hne
    exact hspec.resolve_left fun hnone => hne hnone.1

def oneArea : VregionInfo where
  flags := vregionTopdown
  mmap := some 0
  mmRb := .node .black .nil 0 0x800000 .nil
  nrVmas := 1
  highestVmEnd := 0x40000000
  area := fun _ => ⟨0x800000,0x40000000,none,none,0⟩
  fresh := 1

lemma one_area_rep : Rep oneArea.toVmaTree [0] where
  tree := rfl
  mmap := rfl
  linked := by
    intro a p b hab
    cases a with
    | nil =>
      obtain ⟨rfl,rfl⟩ := List.cons.inj hab
      exact ⟨rfl,rfl⟩
    | cons q a => simp at hab
  nodup := by simp
  fresh := by simp [oneArea]
  count := rfl
  sorted := by
    constructor
    · simp [areas,rangeOf,oneArea]
    · simp [areas]
  highest := rfl
  gaps := ⟨by decide,trivial,trivial⟩

/-- A page fits below the area, at 4 MiB. -/
theorem search_below_area : ∃ addr, findVaRangeLoop 5 oneArea 0 0x400000 = some (.ok addr) ∧
    addr = 0x400000 ∧ ∀ a, FreeAt (areas oneArea.toVmaTree [0]) 0x1000 0x40000000 0x400000 a →
      a ≤ addr := by
  have hrun : findVaRangeLoop 5 oneArea 0 0x400000 = some (.ok 0x400000) := by decide +kernel
  obtain ⟨addr,hfind,-,hbest⟩ := @search_returns_highest oneArea [0] 0 0x400000 5
    one_area_rep (by decide) (by decide) (by decide) (by decide)
    (by simp [areas,rangeOf,oneArea,vregionToEndVa,vregionSize,vregionSizeShift]) (by decide)
  have haddr : addr = 0x400000 := by
    rw [hrun] at hfind
    exact (Except.ok.inj (Option.some.inj hfind)).symm
  exact ⟨addr,hfind,haddr,(hbest (by rw [haddr]; decide)).2⟩

end Clio.FindVaLoop
