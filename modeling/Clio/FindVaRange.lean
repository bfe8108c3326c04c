import Clio.VmRep

/-!
# Searching a vRegion for a free range

The search walks the tree, skips subtrees whose recorded gap is too small and climbs back.
-/

namespace Clio.FindVaRange

open List Rbtree Ranges VmArea VmRep

inductive Walk where
  | found (gapStart gapEnd : ℕ)
  | fail
  | exhausted
  deriving DecidableEq, Repr

def gapStart (area : ℕ → VmAreaStruct) (p : ℕ) : ℕ :=
  match (area p).vmPrev with
  | some q => (area q).vmEnd
  | none => 0

def topdownWalk (area : ℕ → VmAreaStruct) (length lowLimit highLimit : ℕ) : RbTree ℕ → Walk
  | .nil => .exhausted
  | .node _ l x _ r =>
      let right := if gapStart area x ≤ highLimit ∧ r.aug ≥ length
        then topdownWalk area length lowLimit highLimit r else .exhausted
      if right ≠ .exhausted then right
      -- check_current
      else if (area x).vmStart < lowLimit then .fail
      else if gapStart area x ≤ highLimit ∧
          sub64 (area x).vmStart (gapStart area x) ≥ length then
        .found (gapStart area x) (area x).vmStart
      else if l.aug ≥ length then topdownWalk area length lowLimit highLimit l
      else .exhausted

def bottomupWalk (area : ℕ → VmAreaStruct) (length lowLimit highLimit : ℕ) : RbTree ℕ → Walk
  | .nil => .exhausted
  | .node _ l x _ r =>
      let left := if (area x).vmStart ≥ lowLimit ∧ l.aug ≥ length
        then bottomupWalk area length lowLimit highLimit l else .exhausted
      if left ≠ .exhausted then left
      -- check_current
      else if gapStart area x > highLimit then .fail
      else if (area x).vmStart ≥ lowLimit ∧
          sub64 (area x).vmStart (gapStart area x) ≥ length then
        .found (gapStart area x) (area x).vmStart
      else if r.aug ≥ length then bottomupWalk area length lowLimit highLimit r
      else .exhausted

def topdownFound (length lowLimit start stop : ℕ) : Except Fault ℕ :=
  let gapEnd := stop-length
  if gapEnd < lowLimit ∨ gapEnd < start then .error .bug else .ok gapEnd

def findVaRangeTopdown (v : VmaTree) (length low high : ℕ) : Except Fault ℕ :=
  if high < length then .ok errEnomem
  else if low > high-length then .ok errEnomem
  else if v.highestVmEnd ≤ high-length then topdownFound length low v.highestVmEnd high
  else match v.mmRb with
    | .nil => .ok errEnomem
    | .node c l x g r =>
        if g < length then .ok errEnomem
        else match topdownWalk v.area length (low+length) (high-length) (.node c l x g r) with
          | .found start stop => topdownFound length low start (min stop high)
          | _ => .ok errEnomem

def findVaRangeBottomup (v : VmaTree) (length low high : ℕ) : Except Fault ℕ :=
  if high < length then .ok errEnomem
  else if low > high-length then .ok errEnomem
  else
    let highest := if v.highestVmEnd > high-length then errEnomem else max v.highestVmEnd low
    match v.mmRb with
    | .nil => .ok highest
    | .node c l x g r =>
        if g < length then .ok highest
        else match bottomupWalk v.area length (low+length) (high-length) (.node c l x g r) with
          | .found start _ => .ok (max start low)
          | .fail => .ok errEnomem
          | .exhausted => .ok highest

/-- Address 0 to 0x1000 is never given out. -/
def vregionToStartVa (idx : ℕ) : ℕ := if idx = 0 then 0x1000 else idx*vregionSize

def vregionToEndVa (idx : ℕ) : ℕ := (idx+1)*vregionSize

def findVaRange (v : VregionInfo) (idx len : ℕ) : Except Fault ℕ :=
  if len > vregionSize then .ok errEnomem
  else if idx ≥ nrVregions then .error .bug
  else do
    let low := vregionToStartVa idx
    let high := vregionToEndVa idx
    let addr ← if v.flags &&& vregionTopdown ≠ 0 then findVaRangeTopdown v.toVmaTree len low high
      else findVaRangeBottomup v.toVmaTree len low high
    if addr > high-len then return errEnomem else return addr

def Fit (area : ℕ → VmAreaStruct) (length lowLimit highLimit p : ℕ) : Prop :=
  gapStart area p ≤ highLimit ∧ lowLimit ≤ (area p).vmStart ∧
    length ≤ (area p).vmStart-gapStart area p

structure Gapped (area : ℕ → VmAreaStruct) (ps : List ℕ) : Prop where
  below : ∀ p ∈ ps, gapStart area p ≤ (area p).vmStart ∧ (area p).vmStart < 2^64
  order : ps.Pairwise fun p q => (area p).vmStart ≤ gapStart area q

variable (area : ℕ → VmAreaStruct)

lemma gapped_node (a b : List ℕ) (x : ℕ) (h : Gapped area (a++x::b)) :
    Gapped area a ∧ Gapped area b ∧
      gapStart area x ≤ (area x).vmStart ∧ (area x).vmStart < 2^64 ∧
      (∀ q ∈ a, (area q).vmStart ≤ gapStart area x) ∧
      ∀ q ∈ b, (area x).vmStart ≤ gapStart area q := by
  obtain ⟨hb,ho⟩ := h
  simp only [pairwise_append,pairwise_cons,mem_append,mem_cons] at hb ho
  exact ⟨⟨fun p hp => hb p (.inl hp),ho.1⟩,⟨fun p hp => hb p (.inr (.inr hp)),ho.2.1.2⟩,
    (hb x (.inr (.inl rfl))).1,(hb x (.inr (.inl rfl))).2,fun q hq => ho.2.2 q hq x (.inl rfl),
    ho.2.1.1⟩

lemma gap_eq_sub (p : ℕ) : vmaComputeGap area p = (area p).vmStart-gapStart area p := by
  unfold vmaComputeGap gapStart
  cases (area p).vmPrev with
  | none => rfl
  | some q =>
    simp only
    split <;> omega

lemma sub64_eq (a b : ℕ) (hb : b ≤ a) (ha : a < 2^64) : sub64 a b = a-b := by
  unfold sub64
  omega

lemma own_le_aug {α : Type} (own : α → ℕ) (t : RbTree α) (h : AugOk own t) :
    ∀ x ∈ t.toList, own x ≤ t.aug := by
  induction t with
  | nil => simp [RbTree.toList]
  | node c l x g r ihl ihr =>
    have hg : g = max (own x) (max l.aug r.aug) := h.1
    intro y hy
    show own y ≤ g
    simp only [RbTree.toList,mem_append,mem_cons] at hy
    rcases hy with hy | rfl | hy
    · have := ihl h.2.1 y hy
      omega
    · omega
    · have := ihr h.2.2 y hy
      omega

lemma not_fit_of_aug (length low high : ℕ) (t : RbTree ℕ) (haug : AugOk (vmaComputeGap area) t)
    (h : ¬t.aug ≥ length) : ∀ p ∈ t.toList, ¬Fit area length low high p := by
  intro p hp hfit
  have := own_le_aug _ t haug p hp
  rw [gap_eq_sub] at this
  have := hfit.2.2
  omega

def TopdownOk (area : ℕ → VmAreaStruct) (length low high : ℕ) (ps : List ℕ) : Walk → Prop
  | .found s e => ∃ a p b, ps = a++p::b ∧ s = gapStart area p ∧ e = (area p).vmStart ∧
      Fit area length low high p ∧ ∀ q ∈ b, ¬Fit area length low high q
  | .fail => (∃ p ∈ ps, (area p).vmStart < low) ∧ ∀ q ∈ ps, ¬Fit area length low high q
  | .exhausted => ∀ q ∈ ps, ¬Fit area length low high q

lemma topdown_right (length low high x : ℕ) (r : RbTree ℕ) (haug : AugOk (vmaComputeGap area) r)
    (hxr : ∀ q ∈ r.toList, gapStart area x ≤ gapStart area q)
    (hwalk : TopdownOk area length low high r.toList (topdownWalk area length low high r)) :
    TopdownOk area length low high r.toList (if gapStart area x ≤ high ∧ r.aug ≥ length
      then topdownWalk area length low high r else .exhausted) := by
  split
  · exact hwalk
  · next hn =>
    intro q hq hfit
    by_cases hg : gapStart area x ≤ high
    · exact not_fit_of_aug area length low high r haug (fun ha => hn ⟨hg,ha⟩) q hq hfit
    · have := hxr q hq
      have := hfit.1
      omega

lemma not_fit_below {area : ℕ → VmAreaStruct} {length low high p q : ℕ}
    (hp : (area p).vmStart < low) (hle : (area q).vmStart ≤ (area p).vmStart) :
    ¬Fit area length low high q := by
  intro hfit
  have := hfit.2.1
  omega

lemma topdown_before {area : ℕ → VmAreaStruct} {length low high : ℕ} {ps qs : List ℕ} {w : Walk}
    (hqs : ∀ q ∈ qs, ¬Fit area length low high q) (hw : TopdownOk area length low high ps w) :
    TopdownOk area length low high (ps++qs) w := by
  have hall : (∀ q ∈ ps, ¬Fit area length low high q) →
      ∀ q ∈ ps++qs, ¬Fit area length low high q := by
    intro hps q hq
    rcases mem_append.mp hq with hq | hq
    · exact hps q hq
    · exact hqs q hq
  cases w with
  | found s e =>
    obtain ⟨a,p,b,rfl,hs,he,hfit,hb⟩ := hw
    refine ⟨a,p,b++qs,by simp,hs,he,hfit,fun q hq => ?_⟩
    rcases mem_append.mp hq with hq | hq
    · exact hb q hq
    · exact hqs q hq
  | fail =>
    obtain ⟨⟨p,hp,hlow⟩,hnone⟩ := hw
    exact ⟨⟨p,by simp [hp],hlow⟩,hall hnone⟩
  | exhausted => exact hall hw

lemma topdown_walk_ok (length low high : ℕ) (t : RbTree ℕ) (h : Gapped area t.toList)
    (haug : AugOk (vmaComputeGap area) t) :
    TopdownOk area length low high t.toList (topdownWalk area length low high t) := by
  induction t with
  | nil => simp [topdownWalk,TopdownOk,RbTree.toList]
  | node c l x g r ihl ihr =>
    obtain ⟨hl,hr,hxg,hx64,hlx,hxr⟩ := gapped_node area l.toList r.toList x h
    have hright := topdown_right area length low high x r haug.2.2
      (fun q hq => hxg.trans (hxr q hq)) (ihr hr haug.2.2)
    -- an area that begins too low rules out the node and everything before it
    have hrest : ∀ p, (area p).vmStart < low → (area x).vmStart ≤ (area p).vmStart →
        (∀ q ∈ r.toList, ¬Fit area length low high q) →
        ∀ q ∈ l.toList++x::r.toList, ¬Fit area length low high q := by
      intro p hp hle hnone q hq
      rw [mem_append,mem_cons] at hq
      rcases hq with hq | rfl | hq
      · exact not_fit_below hp (((hlx q hq).trans hxg).trans hle)
      · exact not_fit_below hp hle
      · exact hnone q hq
    rw [topdownWalk]
    generalize (if gapStart area x ≤ high ∧ r.aug ≥ length
      then topdownWalk area length low high r else .exhausted) = right at hright ⊢
    simp only [RbTree.toList]
    cases right with
    | found s e =>
      obtain ⟨a,p,b,hab,hs,he,hfit,hb⟩ := hright
      exact ⟨l.toList++x::a,p,b,by simp [hab],hs,he,hfit,hb⟩
    | fail =>
      obtain ⟨⟨p,hp,hlow⟩,hnone⟩ := hright
      have hle : (area x).vmStart ≤ (area p).vmStart := (hxr p hp).trans (hr.below p hp).1
      exact ⟨⟨p,by simp [hp],hlow⟩,hrest p hlow hle hnone⟩
    | exhausted =>
      rw [if_neg (by simp)]
      by_cases hlow : (area x).vmStart < low
      · rw [if_pos hlow]
        exact ⟨⟨x,by simp,hlow⟩,hrest x hlow le_rfl hright⟩
      rw [if_neg hlow,sub64_eq _ _ hxg hx64]
      by_cases hfit : gapStart area x ≤ high ∧ (area x).vmStart-gapStart area x ≥ length
      · rw [if_pos hfit]
        exact ⟨l.toList,x,r.toList,rfl,rfl,rfl,⟨hfit.1,by omega,hfit.2⟩,hright⟩
      rw [if_neg hfit]
      have hx : ∀ q ∈ x::r.toList, ¬Fit area length low high q := by
        intro q hq hf
        rcases mem_cons.mp hq with rfl | hq
        · exact hfit ⟨hf.1,hf.2.2⟩
        · exact hright q hq hf
      apply topdown_before hx
      split
      · exact ihl hl haug.2.1
      · next hn => exact not_fit_of_aug area length low high l haug.2.1 hn

def FreeAt (l : List (Range ℕ)) (low high len a : ℕ) : Prop :=
  low ≤ a ∧ a+len ≤ high ∧ ∀ r ∈ l, r.hi ≤ a ∨ a+len ≤ r.lo

lemma gap_start_eq {v : VmaTree} {a b : List ℕ} {p : ℕ} (h : Shape v (a++p::b)) :
    gapStart v.area p = lastEnd (areas v a) := by
  rw [gapStart,h.prev_eq,lastEnd,areas,List.getLast?_map]
  cases a.getLast? <;> rfl

variable (l : List (Range ℕ))

lemma last_end_le (h : Sorted l) : ∀ r ∈ l, r.hi ≤ lastEnd l := by
  intro r hr
  obtain ⟨a,b,rfl⟩ := append_of_mem hr
  rw [last_end_append]
  obtain ⟨-,hb,hne,-,hhi⟩ := (sorted_node a b r).mp h
  cases hl : b.getLast? with
  | none => exact le_rfl
  | some x =>
    have hx := mem_of_getLast? hl
    have := hhi x hx
    have := hb.1 x hx
    show r.hi ≤ x.hi
    omega

lemma last_end_bound (x : ℕ) (h : ∀ r ∈ l, r.hi ≤ x) : lastEnd l ≤ x := by
  rw [lastEnd]
  cases hl : l.getLast? with
  | none => exact Nat.zero_le x
  | some r => exact h r (mem_of_getLast? hl)

section

variable {v : VmaTree} {ps : List ℕ} {low high len : ℕ}

lemma rep_split {a b : List ℕ} {p : ℕ} (h : Rep v (a++p::b)) : Sorted (areas v a) ∧
    (v.area p).vmStart < (v.area p).vmEnd ∧
    (∀ r ∈ areas v a, r.hi ≤ (v.area p).vmStart) ∧
    ∀ r ∈ areas v b, (v.area p).vmEnd ≤ r.lo := by
  have hs := h.sorted
  rw [areas_append,areas_cons,sorted_node] at hs
  exact ⟨hs.1,hs.2.2.1,hs.2.2.2.1,hs.2.2.2.2⟩

lemma gapped_of_rep (h : Rep v ps) (hin : ∀ r ∈ areas v ps, r.hi ≤ high) (hh : high < 2^64) :
    Gapped v.area ps := by
  constructor
  · intro p hp
    obtain ⟨a,b,rfl⟩ := append_of_mem hp
    obtain ⟨-,hne,hlo,-⟩ := rep_split h
    have hend := hin (rangeOf (v.area p)) (mem_map.mpr ⟨p,hp,rfl⟩)
    rw [gap_start_eq h.toShape]
    refine ⟨last_end_bound _ _ hlo,?_⟩
    simp only [rangeOf] at hend
    omega
  · -- on the part of the list behind any prefix
    suffices hall : ∀ b a, ps = a++b → b.Pairwise fun p q => (v.area p).vmStart ≤
        gapStart v.area q from hall ps [] rfl
    intro b
    induction b with
    | nil => simp
    | cons p b ih =>
      intro a hab
      rw [pairwise_cons]
      refine ⟨?_,ih (a++[p]) (by simp [hab])⟩
      intro q hq
      obtain ⟨c,d,rfl⟩ := append_of_mem hq
      have hsplit : ps = (a++p::c)++q::d := by simp [hab]
      subst hsplit
      obtain ⟨hsorted,-,-,-⟩ := rep_split h
      have hend := last_end_le _ hsorted (rangeOf (v.area p))
        (mem_map.mpr ⟨p,by simp,rfl⟩)
      have hne := hsorted.1 (rangeOf (v.area p)) (mem_map.mpr ⟨p,by simp,rfl⟩)
      rw [gap_start_eq h.toShape]
      simp only [rangeOf] at hend hne
      omega

lemma fit_of_free (h : Rep v ps) (a : ℕ) (hfree : FreeAt (areas v ps) low high len a) :
    v.highestVmEnd ≤ a ∨ ∃ p ∈ ps, Fit v.area len (low+len) (high-len) p ∧
      gapStart v.area p ≤ a ∧ a+len ≤ (v.area p).vmStart := by
  obtain ⟨hlow,hhigh,hmiss⟩ := hfree
  cases hf : ps.find? (fun p => a < (v.area p).vmEnd) with
  | none =>
    rw [List.find?_eq_none] at hf
    left
    rw [h.highest]
    apply last_end_bound
    intro r hr
    obtain ⟨q,hq,rfl⟩ := mem_map.mp hr
    simpa [rangeOf] using hf q hq
  | some p =>
    obtain ⟨hp,c,d,rfl,hc⟩ := List.find?_eq_some_iff_append.mp hf
    have hp : a < (v.area p).vmEnd := by simpa using hp
    have habove : a+len ≤ (v.area p).vmStart := by
      rcases hmiss (rangeOf (v.area p)) (mem_map.mpr ⟨p,by simp,rfl⟩) with hr | hr
      · simp only [rangeOf] at hr
        omega
      · exact hr
    have hgap : gapStart v.area p ≤ a := by
      rw [gap_start_eq h.toShape]
      apply last_end_bound
      intro r hr
      obtain ⟨q,hq,rfl⟩ := mem_map.mp hr
      simpa [rangeOf] using hc q hq
    exact .inr ⟨p,by simp,⟨by omega,by omega,by omega⟩,hgap,habove⟩

lemma free_of_fit {a b : List ℕ} {p : ℕ} (h : Rep v (a++p::b))
    (hin : ∀ r ∈ areas v (a++p::b), r.hi ≤ high)
    (hfit : Fit v.area len (low+len) (high-len) p) :
    FreeAt (areas v (a++p::b)) low high len ((v.area p).vmStart-len) := by
  obtain ⟨hgap,hlow,hroom⟩ := hfit
  obtain ⟨hsorted,hne,hlo,hhi⟩ := rep_split h
  have hend := hin (rangeOf (v.area p)) (mem_map.mpr ⟨p,by simp,rfl⟩)
  have hbelow := last_end_bound _ _ hlo
  simp only [rangeOf] at hend
  rw [gap_start_eq h.toShape] at hgap hroom
  refine ⟨by omega,by omega,fun r hr => ?_⟩
  rw [areas_append,areas_cons,mem_append,mem_cons] at hr
  rcases hr with hr | rfl | hr
  · have := last_end_le _ hsorted r hr
    omega
  · right
    simp only [rangeOf]
    omega
  · have := hhi r hr
    omega

lemma no_room {l : List (Range ℕ)} (h : high < len ∨ low > high-len) (a : ℕ) :
    ¬FreeAt l low high len a := by
  intro ha
  have := ha.1
  have := ha.2.1
  omega

lemma topdown_exact (h : Rep v ps) (hin : ∀ r ∈ areas v ps, r.hi ≤ high) (hh : high < 2^64)
    (hlen : 0 < len) :
    ∃ addr, findVaRangeTopdown v len low high = .ok addr ∧
      ((addr = errEnomem ∧ ∀ a, ¬FreeAt (areas v ps) low high len a) ∨
        (FreeAt (areas v ps) low high len addr ∧
          ∀ a, FreeAt (areas v ps) low high len a → a ≤ addr)) := by
  rw [findVaRangeTopdown]
  by_cases hshort : high < len
  · rw [if_pos hshort]
    exact ⟨_,rfl,.inl ⟨rfl,no_room (.inl hshort)⟩⟩
  rw [if_neg hshort]
  by_cases hlow : low > high-len
  · rw [if_pos hlow]
    exact ⟨_,rfl,.inl ⟨rfl,no_room (.inr hlow)⟩⟩
  rw [if_neg hlow]
  by_cases htop : v.highestVmEnd ≤ high-len
  · rw [if_pos htop,topdownFound]
    refine ⟨high-len,if_neg (by omega),.inr ⟨⟨by omega,by omega,fun r hr => .inl ?_⟩,?_⟩⟩
    · have := last_end_le _ h.sorted r hr
      rw [h.highest] at htop
      omega
    · intro a ha
      have := ha.2.1
      omega
  rw [if_neg htop]
  have hgap := gapped_of_rep h hin hh
  have hfit : ∀ a, FreeAt (areas v ps) low high len a → ∃ p ∈ ps,
      Fit v.area len (low+len) (high-len) p ∧ a+len ≤ (v.area p).vmStart := by
    intro a ha
    rcases fit_of_free h a ha with hlast | ⟨p,hp,hf,-,habove⟩
    · have := ha.2.1
      omega
    · exact ⟨p,hp,hf,habove⟩
  have hnone : (∀ p ∈ ps, ¬Fit v.area len (low+len) (high-len) p) →
      ∀ a, ¬FreeAt (areas v ps) low high len a := by
    intro hno a ha
    obtain ⟨p,hp,hf,-⟩ := hfit a ha
    exact hno p hp hf
  have htree := h.tree
  have haug := h.gaps
  have hwalk := topdown_walk_ok v.area len (low+len) (high-len) v.mmRb (htree ▸ hgap) haug
  have hsmall := not_fit_of_aug v.area len (low+len) (high-len) v.mmRb haug
  rw [htree] at hwalk hsmall
  cases ht : v.mmRb with
  | nil =>
    rw [ht] at htree
    exact ⟨_,rfl,.inl ⟨rfl,hnone (by simp [← htree,RbTree.toList])⟩⟩
  | node c l x g r =>
    rw [ht] at hwalk hsmall
    by_cases hg : g < len
    · simp only [if_pos hg]
      exact ⟨_,rfl,.inl ⟨rfl,hnone (hsmall (show ¬g ≥ len by omega))⟩⟩
    simp only [if_neg hg]
    generalize topdownWalk v.area len (low+len) (high-len) (.node c l x g r) = res at hwalk ⊢
    cases res with
    | fail => exact ⟨_,rfl,.inl ⟨rfl,hnone hwalk.2⟩⟩
    | exhausted => exact ⟨_,rfl,.inl ⟨rfl,hnone hwalk⟩⟩
    | found s e =>
      obtain ⟨a,p,b,rfl,rfl,rfl,hp,hb⟩ := hwalk
      obtain ⟨hlo,hhi,-⟩ := free_of_fit h hin hp
      have hroom := hp.2.2
      have hmin : min (v.area p).vmStart high = (v.area p).vmStart := by omega
      refine ⟨(v.area p).vmStart-len,?_,.inr ⟨free_of_fit h hin hp,?_⟩⟩
      · show topdownFound len low _ (min (v.area p).vmStart high) = _
        rw [hmin,topdownFound]
        exact if_neg (by omega)
      · intro y hy
        obtain ⟨q,hq,hqfit,hqy⟩ := hfit y hy
        have hle : (v.area q).vmStart ≤ (v.area p).vmStart := by
          rcases mem_append.mp hq with hq | hq
          · have := (gapped_node v.area a b p hgap).2.2.2.2.1 q hq
            have := (gapped_node v.area a b p hgap).2.2.1
            omega
          · rcases mem_cons.mp hq with rfl | hq
            · exact le_rfl
            · exact absurd hqfit (hb q hq)
        omega

variable {idx : ℕ}

lemma find_va_range_checked {v : VregionInfo} {addr high : ℕ} (hidx : ¬idx ≥ nrVregions)
    (hle : ¬len > vregionSize) (hhigh : vregionToEndVa idx = high)
    (hrun : (if v.flags &&& vregionTopdown ≠ 0 then
      findVaRangeTopdown v.toVmaTree len (vregionToStartVa idx) high
      else findVaRangeBottomup v.toVmaTree len (vregionToStartVa idx) high) = .ok addr)
    (haddr : addr = errEnomem ∨ ¬addr > high-len) : findVaRange v idx len = .ok addr := by
  have hpass : ∀ x : Except Fault ℕ, x = .ok addr → (do
      let a ← x
      if a > high-len then return errEnomem else return a) = .ok addr := by
    rintro _ rfl
    rw [ok_bind]
    rcases haddr with hnone | hhi
    · rw [← hnone,ite_self]
      rfl
    · rw [if_neg hhi]
      rfl
  rw [findVaRange,if_neg hle,if_neg hidx]
  simp only [hhigh]
  split_ifs at hrun ⊢
  · exact hpass _ hrun
  · exact hpass _ hrun

lemma topdown_flag {v : VregionInfo} (h : v.flags = vregionTopdown) :
    v.flags &&& vregionTopdown ≠ 0 := by
  rw [h]
  decide

lemma end_va_lt (hidx : idx < nrVregions) : vregionToEndVa idx < 2^64 :=
  (Nat.mul_le_mul_right vregionSize hidx).trans_lt (by decide)

lemma find_va_range_exact {v : VregionInfo} (h : Rep v.toVmaTree ps)
    (hflags : v.flags = vregionTopdown) (hidx : idx < nrVregions) (hlen : 0 < len)
    (hle : len ≤ vregionSize) (hin : ∀ r ∈ areas v.toVmaTree ps, r.hi ≤ vregionToEndVa idx) :
    ∃ addr, findVaRange v idx len = .ok addr ∧
      ((addr = errEnomem ∧ ∀ a, ¬FreeAt (areas v.toVmaTree ps) (vregionToStartVa idx)
          (vregionToEndVa idx) len a) ∨
        (FreeAt (areas v.toVmaTree ps) (vregionToStartVa idx) (vregionToEndVa idx) len addr ∧
          ∀ a, FreeAt (areas v.toVmaTree ps) (vregionToStartVa idx) (vregionToEndVa idx) len a →
            a ≤ addr)) := by
  obtain ⟨addr,hrun,hspec⟩ := topdown_exact h hin (end_va_lt hidx) hlen
  refine ⟨addr,find_va_range_checked hidx.not_ge hle.not_gt rfl
    ((if_pos (topdown_flag hflags)).trans hrun) ?_,hspec⟩
  refine hspec.imp (fun hnone => hnone.1) (fun hfree => ?_)
  generalize vregionToEndVa idx = high at hfree
  have := hfree.1.2.1
  omega

end

end Clio.FindVaRange
