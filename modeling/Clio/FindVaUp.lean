import Clio.FindVaLoop

/-!
# The bottom-up search

The bottom-up search mirrors the loop of the top-down search, with two differences.
-/

namespace Clio.FindVaUp

open Rbtree VmArea VmRep FindVaRange FindVaLoop Machine

section

variable (area : ℕ → VmAreaStruct) (length lowLimit highLimit : ℕ)

def stepUp : Cursor → Except Fault Walk ⊕ Cursor
  | .visit c l x g r path =>
      match l with
      | .node lc ll lx lg lr =>
          if (area x).vmStart ≥ lowLimit ∧ lg ≥ length then
            .inr (.visit lc ll lx lg lr (⟨.left,c,x,g,r⟩::path))
          else .inr (.checkCurrent c l x g r path (gapStart area x))
      | .nil => .inr (.checkCurrent c l x g r path (gapStart area x))
  | .checkCurrent c l x g r path start =>
      if start > highLimit then .inl (.ok .fail)
      else if (area x).vmStart ≥ lowLimit ∧ sub64 (area x).vmStart start ≥ length then
        .inl (.ok (.found start (area x).vmStart))
      else
        match r with
        | .node rc rl rx rg rr =>
            if rg ≥ length then .inr (.visit rc rl rx rg rr (⟨.right,c,x,g,l⟩::path))
            else .inr (.climb (.node c l x g r) path)
        | .nil => .inr (.climb (.node c l x g r) path)
  | .climb _ [] => .inl (.ok .exhausted)
  | .climb prev (f::path) =>
      match f.dir with
      | .left =>
          match (area f.elem).vmPrev with
          -- the code would read through a null pointer
          | none => .inl (.error .bug)
          | some q => .inr (.checkCurrent f.color prev f.elem f.aug f.sibling path (area q).vmEnd)
      | .right => .inr (.climb (.node f.color f.sibling f.elem f.aug prev) path)

abbrev loopUp : ℕ → Cursor → Option (Except Fault Walk) :=
  iterate (stepUp area length lowLimit highLimit)

def HasPrev : RbTree ℕ → Prop
  | .nil => True
  | .node _ l x _ r => (l ≠ .nil → (area x).vmPrev ≠ none) ∧ HasPrev l ∧ HasPrev r

def AfterUp (k : ℕ) (t : RbTree ℕ) (path : Path ℕ) (v : Except Fault Walk) : Walk → Prop
  | .exhausted => loopUp area length lowLimit highLimit k (.climb t path) = some v
  | w => v = .ok w

/-- What `checkCurrent` answers for a node. -/
def checkedUp (x : ℕ) (r : RbTree ℕ) : Walk :=
  if gapStart area x > highLimit then .fail
  else if (area x).vmStart ≥ lowLimit ∧ sub64 (area x).vmStart (gapStart area x) ≥ length then
    .found (gapStart area x) (area x).vmStart
  else if r.aug ≥ length then bottomupWalk area length lowLimit highLimit r
  else .exhausted

def leftWalk (l : RbTree ℕ) (x : ℕ) : Walk :=
  if (area x).vmStart ≥ lowLimit ∧ l.aug ≥ length then bottomupWalk area length lowLimit highLimit l
  else .exhausted

def WalksUp (t : RbTree ℕ) : Prop :=
  match t with
  | .nil => True
  | .node c l x g r => ∀ k path v, AfterUp area length lowLimit highLimit k t path v
      (bottomupWalk area length lowLimit highLimit t) →
        loopUp area length lowLimit highLimit (k+4*t.toList.length) (.visit c l x g r path) = some v

variable {area length lowLimit highLimit}

lemma walk_up_node (c : Color) (l : RbTree ℕ) (x g : ℕ) (r : RbTree ℕ) :
    bottomupWalk area length lowLimit highLimit (.node c l x g r) =
      if leftWalk area length lowLimit highLimit l x ≠ .exhausted then
        leftWalk area length lowLimit highLimit l x
      else checkedUp area length lowLimit highLimit x r := rfl

lemma after_right {k : ℕ} {t : RbTree ℕ} {path : Path ℕ} {v : Except Fault Walk} {w : Walk}
    (f : Frame ℕ) (hf : f.dir = .right)
    (h : AfterUp area length lowLimit highLimit k
      (.node f.color f.sibling f.elem f.aug t) path v w) :
    AfterUp area length lowLimit highLimit (k+1) t (f::path) v w := by
  cases w with
  | exhausted =>
    show loopUp area length lowLimit highLimit (k+1) (.climb t (f::path)) = some v
    rw [loopUp,iterate_next (by rw [stepUp,hf])]
    exact h
  | found s e | fail => exact h

lemma check_walk_up (hlen : 0 < length) (c : Color) (l : RbTree ℕ) (x g : ℕ) (r : RbTree ℕ)
    (hr : WalksUp area length lowLimit highLimit r) (k : ℕ) (path : Path ℕ) (v : Except Fault Walk)
    (h : AfterUp area length lowLimit highLimit k (.node c l x g r) path v
      (checkedUp area length lowLimit highLimit x r)) :
    loopUp area length lowLimit highLimit (k+(4*r.toList.length+1)+1)
      (.checkCurrent c l x g r path (gapStart area x)) = some v := by
  unfold checkedUp at h
  by_cases hhigh : gapStart area x > highLimit
  · rw [if_pos hhigh] at h
    rw [show v = .ok .fail from h]
    apply iterate_done
    exact if_pos hhigh
  rw [if_neg hhigh] at h
  by_cases hfit : (area x).vmStart ≥ lowLimit ∧ sub64 (area x).vmStart (gapStart area x) ≥ length
  · rw [if_pos hfit] at h
    rw [show v = .ok (.found (gapStart area x) (area x).vmStart) from h]
    apply iterate_done
    exact (if_neg hhigh).trans (if_pos hfit)
  rw [if_neg hfit] at h
  cases r with
  | nil =>
    rw [if_neg (show ¬(RbTree.nil : RbTree ℕ).aug ≥ length from Nat.not_le.mpr hlen)] at h
    rw [loopUp,iterate_next (by rw [stepUp,if_neg hhigh,if_neg hfit])]
    exact iterate_mono h (by omega)
  | node rc rl rx rg rr =>
    by_cases hg : rg ≥ length
    · -- down to the right; what is exhausted there climbs over this node
      rw [if_pos (show (RbTree.node rc rl rx rg rr).aug ≥ length from hg)] at h
      rw [loopUp,iterate_next (by rw [stepUp,if_neg hhigh,if_neg hfit]; exact if_pos hg)]
      have hsub := hr (k+1) (⟨.right,c,x,g,l⟩::path) v (after_right ⟨.right,c,x,g,l⟩ rfl h)
      exact iterate_mono hsub (by omega)
    · rw [if_neg (show ¬(RbTree.node rc rl rx rg rr).aug ≥ length from hg)] at h
      rw [loopUp,iterate_next (by rw [stepUp,if_neg hhigh,if_neg hfit]; exact if_neg hg)]
      exact iterate_mono h (by omega)

lemma climb_left {prev : RbTree ℕ} {path : Path ℕ} (f : Frame ℕ) (hf : f.dir = .left)
    (hprev : (area f.elem).vmPrev ≠ none) :
    stepUp area length lowLimit highLimit (.climb prev (f::path)) =
      .inr (.checkCurrent f.color prev f.elem f.aug f.sibling path (gapStart area f.elem)) := by
  rw [stepUp,hf,gapStart]
  cases hq : (area f.elem).vmPrev with
  | none => exact absurd hq hprev
  | some q => rfl

lemma walks_up (hlen : 0 < length) (t : RbTree ℕ) (hprev : HasPrev area t) :
    WalksUp area length lowLimit highLimit t := by
  induction t with
  | nil => trivial
  | node c l x g r ihl ihr =>
    obtain ⟨hx,hl,hr⟩ := hprev
    intro k path v h
    have hsize : (RbTree.node c l x g r).toList.length = l.toList.length+r.toList.length+1 := by
      simp only [RbTree.toList,List.length_append,List.length_cons]
      omega
    rw [hsize,show k+4*(l.toList.length+r.toList.length+1) =
      (k+(4*r.toList.length+1)+1)+1+4*l.toList.length+1 by omega]
    rw [walk_up_node] at h
    have hcheck := check_walk_up hlen c l x g r (ihr hr) k path v
    have hskip : leftWalk area length lowLimit highLimit l x = .exhausted →
        loopUp area length lowLimit highLimit (k+(4*r.toList.length+1)+1)
          (.checkCurrent c l x g r path (gapStart area x)) = some v := by
      intro hleft
      rw [hleft,if_neg (by simp)] at h
      exact hcheck h
    cases l with
    | nil =>
      rw [loopUp,iterate_next (by rw [stepUp])]
      refine iterate_mono (hskip ?_) (by omega)
      exact if_neg fun hn => Nat.not_le.mpr hlen hn.2
    | node lc ll lx lg lr =>
      by_cases hg : (area x).vmStart ≥ lowLimit ∧ lg ≥ length
      · rw [loopUp,iterate_next (by rw [stepUp]; exact if_pos hg)]
        have hleft : leftWalk area length lowLimit highLimit (.node lc ll lx lg lr) x =
            bottomupWalk area length lowLimit highLimit (.node lc ll lx lg lr) := if_pos hg
        apply ihl hl
        cases hw : bottomupWalk area length lowLimit highLimit (.node lc ll lx lg lr) with
        | exhausted =>
          show loopUp area length lowLimit highLimit _ (.climb _ (⟨.left,c,x,g,r⟩::path)) = some v
          rw [loopUp,iterate_next (climb_left ⟨.left,c,x,g,r⟩ rfl (hx (by simp)))]
          exact hskip (hleft.trans hw)
        | found s e | fail =>
          rw [hleft,hw,if_pos (by simp)] at h
          exact h
      · rw [loopUp,iterate_next (by rw [stepUp]; exact if_neg hg)]
        exact iterate_mono (hskip (if_neg hg)) (by omega)

lemma loop_up_root (hlen : 0 < length) (c : Color) (l : RbTree ℕ) (x g : ℕ) (r : RbTree ℕ)
    (hprev : HasPrev area (.node c l x g r)) (fuel : ℕ)
    (hfuel : 4*(RbTree.node c l x g r).toList.length+1 ≤ fuel) :
    loopUp area length lowLimit highLimit fuel (.visit c l x g r []) =
      some (.ok (bottomupWalk area length lowLimit highLimit (.node c l x g r))) := by
  refine iterate_mono (walks_up hlen (.node c l x g r) hprev 1 [] _ ?_) (by omega)
  cases bottomupWalk area length lowLimit highLimit (.node c l x g r) with
  | exhausted => exact iterate_done rfl 0
  | found s e | fail => rfl

lemma has_prev {v : VmaTree} {ps : List ℕ} (h : Shape v ps) (t : RbTree ℕ) (a b : List ℕ)
    (hps : ps = a++t.toList++b) : HasPrev v.area t := by
  induction t generalizing a b with
  | nil => trivial
  | node c l x g r ihl ihr =>
    rw [RbTree.toList] at hps
    refine ⟨fun hne => ?_,ihl a (x::r.toList++b) (by simp [hps]),
      ihr (a++l.toList++[x]) b (by simp [hps])⟩
    have hsplit : ps = (a++l.toList)++x::(r.toList++b) := by simp [hps]
    rw [hsplit] at h
    rw [h.prev_eq,Ne,List.getLast?_eq_none_iff,List.append_eq_nil_iff]
    rintro ⟨-,hnil⟩
    cases l with
    | nil => exact hne rfl
    | node lc ll lx lg lr => simp [RbTree.toList] at hnil

end

def BottomupOk (area : ℕ → VmAreaStruct) (length low high : ℕ) (ps : List ℕ) : Walk → Prop
  | .found s e => ∃ a p b, ps = a++p::b ∧ s = gapStart area p ∧ e = (area p).vmStart ∧
      Fit area length low high p ∧ ∀ q ∈ a, ¬Fit area length low high q
  | .fail => (∃ p ∈ ps, gapStart area p > high) ∧ ∀ q ∈ ps, ¬Fit area length low high q
  | .exhausted => ∀ q ∈ ps, ¬Fit area length low high q

section

variable {area : ℕ → VmAreaStruct} {length low high : ℕ}

lemma not_fit_above {p q : ℕ} (hp : gapStart area p > high)
    (hle : gapStart area p ≤ gapStart area q) : ¬Fit area length low high q := by
  intro hfit
  have := hfit.1
  omega

lemma bottomup_left {x : ℕ} {l : RbTree ℕ} (haug : AugOk (vmaComputeGap area) l)
    (hlx : ∀ q ∈ l.toList, (area q).vmStart ≤ (area x).vmStart)
    (hwalk : BottomupOk area length low high l.toList (bottomupWalk area length low high l)) :
    BottomupOk area length low high l.toList (leftWalk area length low high l x) := by
  unfold leftWalk
  split
  · exact hwalk
  · next hn =>
    intro q hq hfit
    by_cases hg : (area x).vmStart ≥ low
    · exact not_fit_of_aug area length low high l haug (fun ha => hn ⟨hg,ha⟩) q hq hfit
    · have := hlx q hq
      have := hfit.2.1
      omega

lemma bottomup_behind (ps : List ℕ) {qs : List ℕ} {w : Walk}
    (hps : ∀ q ∈ ps, ¬Fit area length low high q)
    (hw : BottomupOk area length low high qs w) : BottomupOk area length low high (ps++qs) w := by
  have hall : (∀ q ∈ qs, ¬Fit area length low high q) →
      ∀ q ∈ ps++qs, ¬Fit area length low high q := by
    intro hqs q hq
    rcases List.mem_append.mp hq with hq | hq
    · exact hps q hq
    · exact hqs q hq
  cases w with
  | found s e =>
    obtain ⟨a,p,b,rfl,hs,he,hfit,hb⟩ := hw
    refine ⟨ps++a,p,b,by simp,hs,he,hfit,fun q hq => ?_⟩
    rcases List.mem_append.mp hq with hq | hq
    · exact hps q hq
    · exact hb q hq
  | fail =>
    obtain ⟨⟨p,hp,hhigh⟩,hnone⟩ := hw
    exact ⟨⟨p,by simp [hp],hhigh⟩,hall hnone⟩
  | exhausted => exact hall hw

lemma bottomup_walk_ok (length low high : ℕ) (t : RbTree ℕ) (h : Gapped area t.toList)
    (haug : AugOk (vmaComputeGap area) t) :
    BottomupOk area length low high t.toList (bottomupWalk area length low high t) := by
  induction t with
  | nil => simp [bottomupWalk,BottomupOk,RbTree.toList]
  | node c l x g r ihl ihr =>
    obtain ⟨hl,hr,hxg,hx64,hlx,hxr⟩ := gapped_node area l.toList r.toList x h
    have hleft := bottomup_left haug.2.1 (fun q hq => (hlx q hq).trans hxg) (ihl hl haug.2.1)
    -- a gap that begins too high rules out the node and everything behind it
    have hrest : ∀ p, gapStart area p > high → gapStart area p ≤ gapStart area x →
        ∀ q ∈ x::r.toList, ¬Fit area length low high q := by
      intro p hp hle q hq
      rcases List.mem_cons.mp hq with rfl | hq
      · exact not_fit_above hp hle
      · exact not_fit_above hp (hle.trans (hxg.trans (hxr q hq)))
    rw [walk_up_node]
    generalize leftWalk area length low high l x = left at hleft ⊢
    simp only [RbTree.toList]
    cases left with
    | found s e =>
      obtain ⟨a,p,b,hab,hs,he,hfit,ha⟩ := hleft
      exact ⟨a,p,b++x::r.toList,by simp [hab],hs,he,hfit,ha⟩
    | fail =>
      obtain ⟨⟨p,hp,hhigh⟩,hnone⟩ := hleft
      have hle : gapStart area p ≤ gapStart area x := (hl.below p hp).1.trans (hlx p hp)
      refine ⟨⟨p,by simp [hp],hhigh⟩,fun q hq => ?_⟩
      rcases List.mem_append.mp hq with hq | hq
      · exact hnone q hq
      · exact hrest p hhigh hle q hq
    | exhausted =>
      rw [if_neg (by simp)]
      apply bottomup_behind _ hleft
      unfold checkedUp
      by_cases hhigh : gapStart area x > high
      · rw [if_pos hhigh]
        exact ⟨⟨x,by simp,hhigh⟩,hrest x hhigh le_rfl⟩
      rw [if_neg hhigh,sub64_eq _ _ hxg hx64]
      by_cases hfit : (area x).vmStart ≥ low ∧ (area x).vmStart-gapStart area x ≥ length
      · rw [if_pos hfit]
        exact ⟨[],x,r.toList,rfl,rfl,rfl,⟨by omega,hfit.1,hfit.2⟩,by simp⟩
      rw [if_neg hfit]
      have hx : ∀ q ∈ [x], ¬Fit area length low high q := by
        intro q hq hf
        obtain rfl := List.mem_singleton.mp hq
        exact hfit ⟨hf.2.1,hf.2.2⟩
      refine bottomup_behind [x] hx ?_
      split
      · exact ihr hr haug.2.2
      · next hn => exact not_fit_of_aug area length low high r haug.2.2 hn

end

def bottomupLoop (fuel : ℕ) (v : VmaTree) (length low high : ℕ) : Option (Except Fault ℕ) :=
  if high < length then some (.ok errEnomem)
  else if low > high-length then some (.ok errEnomem)
  else
    let highest := if v.highestVmEnd > high-length then errEnomem else max v.highestVmEnd low
    match v.mmRb with
    | .nil => some (.ok highest)
    | .node c l x g r =>
        if g < length then some (.ok highest)
        else (loopUp v.area length (low+length) (high-length) fuel (.visit c l x g r [])).map
          fun res => res.map fun w =>
            match w with
            | .found start _ => max start low
            | .fail => errEnomem
            | .exhausted => highest

/-- `__find_va_range` of a vRegion that is searched from below. -/
def findVaRangeUpLoop (fuel : ℕ) (v : VregionInfo) (idx len : ℕ) : Option (Except Fault ℕ) :=
  if len > vregionSize then some (.ok errEnomem)
  else if idx ≥ nrVregions then some (.error .bug)
  else (bottomupLoop fuel v.toVmaTree len (vregionToStartVa idx) (vregionToEndVa idx)).map
    fun res => do
      let addr ← res
      if addr > vregionToEndVa idx-len then return errEnomem else return addr

lemma bottomup_loop_eq {fuel : ℕ} {v : VmaTree} {length low high : ℕ} (hlen : 0 < length)
    (hprev : HasPrev v.area v.mmRb) (hfuel : 4*v.mmRb.toList.length+1 ≤ fuel) :
    bottomupLoop fuel v length low high = some (findVaRangeBottomup v length low high) := by
  unfold bottomupLoop findVaRangeBottomup
  dsimp only
  generalize (if v.highestVmEnd > high-length then errEnomem else max v.highestVmEnd low) = highest
  split_ifs
  · rfl
  · rfl
  · cases ht : v.mmRb with
    | nil => rfl
    | node c l x g r =>
      rw [ht] at hfuel hprev
      simp only
      split_ifs with hg
      · rfl
      · rw [loop_up_root hlen c l x g r hprev fuel hfuel]
        cases bottomupWalk v.area length (low+length) (high-length) (.node c l x g r) <;> rfl

lemma find_va_range_up_loop_eq {fuel : ℕ} {v : VregionInfo} {idx len : ℕ} (hlen : 0 < len)
    (hprev : HasPrev v.area v.mmRb) (hup : v.flags &&& vregionTopdown = 0)
    (hfuel : 4*v.mmRb.toList.length+1 ≤ fuel) :
    findVaRangeUpLoop fuel v idx len = some (findVaRange v idx len) := by
  unfold findVaRangeUpLoop findVaRange
  split_ifs with _ _ htop
  · rfl
  · rfl
  · exact absurd hup htop
  · rw [bottomup_loop_eq hlen hprev hfuel]
    rfl

section

variable {v : VmaTree} {ps : List ℕ} {low high len : ℕ}

lemma free_at_gap {a b : List ℕ} {p : ℕ} (h : Rep v (a++p::b)) (hlow : low+len ≤ high)
    (hfit : Fit v.area len (low+len) (high-len) p) :
    FreeAt (areas v (a++p::b)) low high len (max (gapStart v.area p) low) := by
  obtain ⟨hgap,hstart,hroom⟩ := hfit
  obtain ⟨hsorted,hne,hlo,hhi⟩ := rep_split h
  have hbelow := last_end_bound _ _ hlo
  rw [gap_start_eq h.toShape] at hgap hroom ⊢
  refine ⟨by omega,by omega,fun r hr => ?_⟩
  rw [areas_append,areas_cons,List.mem_append,List.mem_cons] at hr
  rcases hr with hr | rfl | hr
  · have := last_end_le _ hsorted r hr
    omega
  · right
    simp only [rangeOf]
    omega
  · have := hhi r hr
    omega

lemma highest_exact (h : Rep v ps) (hlow : low+len ≤ high)
    (hnone : ∀ p ∈ ps, ¬Fit v.area len (low+len) (high-len) p) (addr : ℕ)
    (haddr : addr = if v.highestVmEnd > high-len then errEnomem else max v.highestVmEnd low) :
    (addr = errEnomem ∧ ∀ a, ¬FreeAt (areas v ps) low high len a) ∨
      (FreeAt (areas v ps) low high len addr ∧
        ∀ a, FreeAt (areas v ps) low high len a → addr ≤ a) := by
  have habove : ∀ a, FreeAt (areas v ps) low high len a → v.highestVmEnd ≤ a := by
    intro a ha
    rcases fit_of_free h a ha with hlast | ⟨p,hp,hf,-⟩
    · exact hlast
    · exact absurd hf (hnone p hp)
  split_ifs at haddr with hfull
  · refine .inl ⟨haddr,fun a ha => ?_⟩
    have := habove a ha
    have := ha.2.1
    omega
  · refine .inr ⟨⟨by omega,by omega,fun r hr => .inl ?_⟩,fun a ha => ?_⟩
    · have := last_end_le _ h.sorted r hr
      rw [h.highest] at haddr
      omega
    · have := habove a ha
      have := ha.1
      omega

lemma bottomup_exact (low len : ℕ) (h : Rep v ps) (hin : ∀ r ∈ areas v ps, r.hi ≤ high)
    (hh : high < 2^64) :
    ∃ addr, findVaRangeBottomup v len low high = .ok addr ∧
      ((addr = errEnomem ∧ ∀ a, ¬FreeAt (areas v ps) low high len a) ∨
        (FreeAt (areas v ps) low high len addr ∧
          ∀ a, FreeAt (areas v ps) low high len a → addr ≤ a)) := by
  rw [findVaRangeBottomup]
  by_cases hshort : high < len
  · rw [if_pos hshort]
    exact ⟨_,rfl,.inl ⟨rfl,no_room (.inl hshort)⟩⟩
  rw [if_neg hshort]
  by_cases hlow : low > high-len
  · rw [if_pos hlow]
    exact ⟨_,rfl,.inl ⟨rfl,no_room (.inr hlow)⟩⟩
  rw [if_neg hlow]
  have hroom : low+len ≤ high := by omega
  have hgap := gapped_of_rep h hin hh
  have htree := h.tree
  have haug := h.gaps
  have hwalk := bottomup_walk_ok len (low+len) (high-len) v.mmRb (htree ▸ hgap) haug
  have hsmall := not_fit_of_aug v.area len (low+len) (high-len) v.mmRb haug
  rw [htree] at hwalk hsmall
  cases ht : v.mmRb with
  | nil =>
    rw [ht] at htree
    exact ⟨_,rfl,highest_exact h hroom (by simp [← htree,RbTree.toList]) _ rfl⟩
  | node c l x g r =>
    rw [ht] at hwalk hsmall
    by_cases hg : g < len
    · simp only [if_pos hg]
      exact ⟨_,rfl,highest_exact h hroom (hsmall (show ¬g ≥ len by omega)) _ rfl⟩
    simp only [if_neg hg]
    generalize bottomupWalk v.area len (low+len) (high-len) (.node c l x g r) = res at hwalk ⊢
    cases res with
    | exhausted => exact ⟨_,rfl,highest_exact h hroom hwalk _ rfl⟩
    | fail =>
      obtain ⟨⟨p,hp,hhigh⟩,hnone⟩ := hwalk
      -- a gap above the limit: the last area ends above it too
      have hlast : v.highestVmEnd > high-len := by
        have hend := last_end_le _ h.sorted (rangeOf (v.area p)) (List.mem_map.mpr ⟨p,hp,rfl⟩)
        have hne := h.sorted.1 (rangeOf (v.area p)) (List.mem_map.mpr ⟨p,hp,rfl⟩)
        have hbelow := (hgap.below p hp).1
        simp only [rangeOf] at hend hne
        rw [h.highest]
        omega
      exact ⟨_,rfl,highest_exact h hroom hnone _ (if_pos hlast).symm⟩
    | found s e =>
      obtain ⟨a,p,b,rfl,rfl,rfl,hp,ha⟩ := hwalk
      refine ⟨_,rfl,.inr ⟨free_at_gap h hroom hp,fun y hy => ?_⟩⟩
      have hylow := hy.1
      obtain ⟨-,-,hpgap,-,-,hbehind⟩ := gapped_node v.area a b p hgap
      rcases fit_of_free h y hy with hlast | ⟨q,hq,hqfit,hqy,-⟩
      · -- above every area, so above this gap
        have hend := last_end_le _ h.sorted (rangeOf (v.area p))
          (List.mem_map.mpr ⟨p,by simp,rfl⟩)
        have hne := (rep_split h).2.1
        rw [h.highest] at hlast
        simp only [rangeOf] at hend
        omega
      · have hle : gapStart v.area p ≤ gapStart v.area q := by
          rcases List.mem_append.mp hq with hq | hq
          · exact absurd hqfit (ha q hq)
          · rcases List.mem_cons.mp hq with rfl | hq
            · exact le_rfl
            · exact hpgap.trans (hbehind q hq)
        omega

end

/-- The search from below ends with the lowest free range, or with `-ENOMEM` if there is none. -/
theorem search_returns_lowest {v : VregionInfo} {ps : List ℕ} {idx len fuel : ℕ}
    (h : Rep v.toVmaTree ps) (hup : v.flags &&& vregionTopdown = 0) (hidx : idx < nrVregions)
    (hlen : 0 < len) (hle : len ≤ vregionSize)
    (hin : ∀ r ∈ areas v.toVmaTree ps, r.hi ≤ vregionToEndVa idx) (hfuel : 4*ps.length+1 ≤ fuel) :
    ∃ addr, findVaRangeUpLoop fuel v idx len = some (.ok addr) ∧
      (addr = errEnomem ↔ ∀ a, ¬FreeAt (areas v.toVmaTree ps) (vregionToStartVa idx)
        (vregionToEndVa idx) len a) ∧
      (addr ≠ errEnomem → FreeAt (areas v.toVmaTree ps) (vregionToStartVa idx)
          (vregionToEndVa idx) len addr ∧
        ∀ a, FreeAt (areas v.toVmaTree ps) (vregionToStartVa idx) (vregionToEndVa idx) len a →
          addr ≤ a) := by
  obtain ⟨addr,hrun,hspec⟩ := bottomup_exact (vregionToStartVa idx) len h hin (end_va_lt hidx)
  have hprev : HasPrev v.area v.mmRb := has_prev h.toShape v.mmRb [] [] (by simp [h.tree])
  have hfind : findVaRange v idx len = .ok addr := by
    refine find_va_range_checked hidx.not_ge hle.not_gt rfl
      ((if_neg (not_not_intro hup)).trans hrun) ?_
    refine hspec.imp (fun hnone => hnone.1) (fun hfree => ?_)
    have := hfree.1.2.1
    omega
  refine ⟨addr,?_,?_,?_⟩
  · rw [find_va_range_up_loop_eq hlen hprev hup (h.tree ▸ hfuel),hfind]
  · rcases hspec with ⟨haddr,hnone⟩ | ⟨hfree,-⟩
    · exact ⟨fun _ => hnone,fun _ => haddr⟩
    · exact ⟨fun heq => absurd heq (free_ne_enomem hidx hfree),fun hno => absurd hfree (hno addr)⟩
  · intro hne
    exact hspec.resolve_left fun hnone => hne hnone.1

def twoAreas : VregionInfo where
  flags := 0
  mmap := some 0
  mmRb := .node .black (.node .red .nil 0 0x1000 .nil) 1 0x400000 .nil
  nrVmas := 2
  highestVmEnd := 0xC00000
  area := fun p => if p = 0 then ⟨0x1000,0x400000,some 1,none,0⟩
    else ⟨0x800000,0xC00000,none,some 0,0⟩
  fresh := 2

lemma two_areas_rep : Rep twoAreas.toVmaTree [0,1] where
  tree := rfl
  mmap := rfl
  linked := by
    intro a p b hab
    rcases a with _ | ⟨q,_ | ⟨s,a⟩⟩
    · obtain ⟨rfl,rfl⟩ := List.cons.inj hab
      exact ⟨rfl,rfl⟩
    · obtain ⟨rfl,hrest⟩ := List.cons.inj hab
      obtain ⟨rfl,rfl⟩ := List.cons.inj hrest
      exact ⟨rfl,rfl⟩
    · simp at hab
  nodup := by simp
  fresh := by simp [twoAreas]
  count := rfl
  sorted := by
    constructor
    · simp [areas,rangeOf,twoAreas]
    · simp [areas,rangeOf,twoAreas]
  highest := rfl
  gaps := ⟨by decide,⟨by decide,trivial,trivial⟩,trivial⟩

theorem search_between_areas : ∃ addr,
    findVaRangeUpLoop 9 twoAreas 0 0x400000 = some (.ok addr) ∧ addr = 0x400000 ∧
      ∀ a, FreeAt (areas twoAreas.toVmaTree [0,1]) 0x1000 0x40000000 0x400000 a → addr ≤ a := by
  have hrun : findVaRangeUpLoop 9 twoAreas 0 0x400000 = some (.ok 0x400000) := by decide +kernel
  obtain ⟨addr,hfind,-,hbest⟩ := @search_returns_lowest twoAreas [0,1] 0 0x400000 9
    two_areas_rep (by decide) (by decide) (by decide) (by decide)
    (by simp [areas,rangeOf,twoAreas,vregionToEndVa,vregionSize,vregionSizeShift]) (by decide)
  have haddr : addr = 0x400000 := by
    rw [hrun] at hfind
    exact (Except.ok.inj (Option.some.inj hfind)).symm
  exact ⟨addr,hfind,haddr,(hbest (by rw [haddr]; decide)).2⟩

end Clio.FindVaUp
