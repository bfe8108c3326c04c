import Mathlib

/-!
# Augmented red-black trees

A node records an element, its colour and the maximum of a quantity `own` over the elements of its
subtree.
-/

namespace Clio.Rbtree

inductive Color where
  | red
  | black
  deriving DecidableEq, Repr

inductive Dir where
  | left
  | right
  deriving DecidableEq, Repr

inductive RbTree (α : Type) where
  | nil
  | node (color : Color) (left : RbTree α) (elem : α) (aug : ℕ) (right : RbTree α)
  deriving DecidableEq, Repr

structure Frame (α : Type) where
  dir : Dir
  color : Color
  elem : α
  aug : ℕ
  sibling : RbTree α

/-- Innermost frame first. -/
abbrev Path (α : Type) := List (Frame α)

variable {α : Type}

namespace RbTree

def toList : RbTree α → List α
  | nil => []
  | node _ l x _ r => l.toList++x::r.toList

def aug : RbTree α → ℕ
  | nil => 0
  | node _ _ _ g _ => g

def isRed : RbTree α → Bool
  | node .red _ _ _ _ => true
  | _ => false

def paint (c : Color) : RbTree α → RbTree α
  | nil => nil
  | node _ l x g r => node c l x g r

/-- The child on side `d`. -/
def child (d : Dir) : RbTree α → RbTree α
  | nil => nil
  | node _ l _ _ r => match d with
    | .left => l
    | .right => r

end RbTree

open RbTree

def Dir.flip : Dir → Dir
  | .left => .right
  | .right => .left

def join (d : Dir) (c : Color) (a : RbTree α) (x : α) (g : ℕ) (b : RbTree α) : RbTree α :=
  match d with
  | .left => node c a x g b
  | .right => node c b x g a

def plug : Path α → RbTree α → RbTree α
  | [], t => t
  | f::p, t => plug p (join f.dir f.color t f.elem f.aug f.sibling)

def pre : Path α → List α
  | [] => []
  | f::p => pre p++(match f.dir with
    | .left => []
    | .right => f.sibling.toList++[f.elem])

def post : Path α → List α
  | [] => []
  | f::p => (match f.dir with
    | .left => f.elem::f.sibling.toList
    | .right => [])++post p

def computeMax (own : α → ℕ) (x : α) (a b : RbTree α) : ℕ :=
  max (own x) (max a.aug b.aug)

def propagate (own : α → ℕ) : ℕ → Path α → Path α
  | _, [] => []
  | a, f::p =>
      let m := max (own f.elem) (max a f.sibling.aug)
      if m = f.aug then f::p else {f with aug := m}::propagate own m p

def locate [DecidableEq α] (x : α) : RbTree α → Path α → Option (RbTree α × Path α)
  | nil, _ => none
  | node c l y g r, p =>
      if y = x then some (node c l y g r, p)
      else (locate x l (⟨.left,c,y,g,r⟩::p)).orElse fun _ =>
        locate x r (⟨.right,c,y,g,l⟩::p)

def update [DecidableEq α] (own : α → ℕ) (x : α) (t : RbTree α) : RbTree α :=
  match locate x t [] with
  | some (node c l y g r, p) =>
      let m := computeMax own y l r
      if m = g then t else plug (propagate own m p) (node c l y m r)
  | _ => t

def descend : List Dir → RbTree α → Path α → Option (Path α)
  | [], nil, p => some p
  | .left::ds, node c l x g r, p => descend ds l (⟨.left,c,x,g,r⟩::p)
  | .right::ds, node c l x g r, p => descend ds r (⟨.right,c,x,g,l⟩::p)
  | _, _, _ => none

def insertColor (own : α → ℕ) : Path α → RbTree α → RbTree α
  | [], n => n.paint .black
  | [f], n => plug [f] n
  | f::g::p, n =>
      if f.color = .black then plug (f::g::p) n
      else if g.sibling.isRed then
        -- case 1: the uncle is red, recolour and continue at the grandparent
        insertColor own p (join g.dir .red (join f.dir .black n f.elem f.aug f.sibling)
          g.elem g.aug (g.sibling.paint .black))
      else if f.dir = g.dir then
        -- case 3: rotate at the grandparent
        plug p (join g.dir g.color n f.elem g.aug
          (join g.dir .red (f.sibling.paint .black) g.elem
            (computeMax own g.elem f.sibling g.sibling) g.sibling))
      else match n with
        | nil => plug (f::g::p) n
        | node c l x a r =>
            -- case 2 then case 3: rotate at the parent first
            let near := (node c l x a r).child g.dir
            let far := (node c l x a r).child g.dir.flip
            plug p (join g.dir g.color
              (join g.dir .red f.sibling f.elem (computeMax own f.elem f.sibling near)
                (near.paint .black)) x g.aug
              (join g.dir .red (far.paint .black) g.elem
                (computeMax own g.elem far g.sibling) g.sibling))

def insertAt (own : α → ℕ) (ds : List Dir) (x : α) (t : RbTree α) : RbTree α :=
  match descend ds t [] with
  | none => t
  | some p =>
      let q := if own x = 0 then p else propagate own (own x) p
      insertColor own q (node .red nil x (own x) nil)

def eraseBlack (own : α → ℕ) (f : Frame α) (n : RbTree α) : RbTree α × Bool :=
  match f.sibling with
  | nil => (join f.dir f.color n f.elem f.aug nil,false)
  | node c l x a r =>
      let near := (node c l x a r).child f.dir
      let far := (node c l x a r).child f.dir.flip
      if far.isRed then
        -- case 4: rotate at the parent
        (join f.dir f.color (join f.dir .black n f.elem (computeMax own f.elem n near) near)
          x f.aug (far.paint .black),false)
      else match near with
        | node .red l' y b r' =>
            -- case 3 then case 4: rotate at the sibling first
            let near' := (node .red l' y b r').child f.dir
            let far' := (node .red l' y b r').child f.dir.flip
            (join f.dir f.color
              (join f.dir .black n f.elem (computeMax own f.elem n near') near') y f.aug
              (join f.dir .black (far'.paint .black) x (computeMax own x far' far) far),false)
        | _ =>
            -- case 2: flip the sibling's colour
            (join f.dir .black n f.elem f.aug (f.sibling.paint .red),f.color = .black)

def eraseColor (own : α → ℕ) : Path α → RbTree α → RbTree α
  | [], n => n
  | f::p, n =>
      match f.sibling with
      | node .red l x a r =>
          -- case 1: rotate at the parent, which becomes red
          let near := (node .red l x a r).child f.dir
          let far := (node .red l x a r).child f.dir.flip
          let below : Frame α := ⟨f.dir,.red,f.elem,computeMax own f.elem n near,
            near.paint .black⟩
          plug (⟨f.dir,f.color,x,f.aug,far⟩::p) (eraseBlack own below n).1
      | _ =>
          let res := eraseBlack own f n
          if res.2 then eraseColor own p res.1 else plug p res.1

/-- The leftmost node of a tree, as a focus. -/
def leftmost : RbTree α → Path α → RbTree α × Path α
  | nil, p => (nil,p)
  | node c nil x g r, p => (node c nil x g r,p)
  | node c (node c' l' x' g' r') x g r, p =>
      leftmost (node c' l' x' g' r') (⟨.left,c,x,g,r⟩::p)

def eraseNode (own : α → ℕ) (p : Path α) (c : Color) (l : RbTree α) (g : ℕ) (r : RbTree α) :
    RbTree α :=
  match l with
  | nil => match r with
    | nil =>
        let q := propagate own 0 p
        if c = .black then eraseColor own q nil else plug q nil
    | node _ l' x' g' r' => plug (propagate own g' p) (node c l' x' g' r')
  | node cl ll xl gl rl => match r with
    | nil => plug (propagate own gl p) (node c ll xl gl rl)
    | node cr lr xr gr rr => match leftmost (node cr lr xr gr rr) [] with
      | (node cs _ s _ rs,inner) =>
          -- the successor takes the place, the colour and the record of the node
          let inner' := propagate own rs.aug inner
          let outer := propagate own (plug inner' rs).aug
            (⟨.right,c,s,g,node cl ll xl gl rl⟩::p)
          match rs with
          | nil => if cs = .black then eraseColor own (inner'++outer) nil
              else plug (inner'++outer) nil
          | node _ l' x' g' r' => plug (inner'++outer) (node .black l' x' g' r')
      | _ => nil

/-- Erase the node of `x`. -/
def erase [DecidableEq α] (own : α → ℕ) (x : α) (t : RbTree α) : RbTree α :=
  match locate x t [] with
  | some (node c l _ g r, p) => eraseNode own p c l g r
  | _ => t

/-! ## Elements -/

variable (c : Color) (t : RbTree α)

@[simp] lemma to_list_paint : (t.paint c).toList = t.toList := by
  cases t <;> rfl

@[simp] lemma aug_paint : (t.paint c).aug = t.aug := by
  cases t <;> rfl

variable (d : Dir)

lemma to_list_join (c : Color) (a : RbTree α) (x : α) (g : ℕ) (b : RbTree α) :
    (join d c a x g b).toList = match d with
      | .left => a.toList++x::b.toList
      | .right => b.toList++x::a.toList := by
  cases d <;> rfl

lemma join_child (c : Color) (l : RbTree α) (x : α) (g : ℕ) (r : RbTree α) :
    join d c ((node c l x g r).child d) x g ((node c l x g r).child d.flip) = node c l x g r := by
  cases d <;> rfl

variable (p : Path α)

lemma to_list_plug (t : RbTree α) : (plug p t).toList = pre p++t.toList++post p := by
  induction p generalizing t with
  | nil => simp [plug,pre,post]
  | cons f p ih =>
    rw [plug,ih,to_list_join]
    cases hf : f.dir <;> simp [pre,post,hf]

lemma plug_append (q : Path α) (t : RbTree α) : plug (p++q) t = plug q (plug p t) := by
  induction p generalizing t with
  | nil => rfl
  | cons f p ih => exact ih _

lemma pre_append (q : Path α) : pre (p++q) = pre q++pre p := by
  induction p with
  | nil => simp [pre]
  | cons f p ih => simp [pre,ih]

lemma post_append (q : Path α) : post (p++q) = post p++post q := by
  induction p with
  | nil => simp [post]
  | cons f p ih => simp [post,ih]

@[simp] lemma pre_propagate (own : α → ℕ) (a : ℕ) (p : Path α) :
    pre (propagate own a p) = pre p := by
  induction p generalizing a with
  | nil => rfl
  | cons f p ih =>
    rw [propagate]
    split
    · rfl
    · simp [pre,ih]

@[simp] lemma post_propagate (own : α → ℕ) (a : ℕ) (p : Path α) :
    post (propagate own a p) = post p := by
  induction p generalizing a with
  | nil => rfl
  | cons f p ih =>
    rw [propagate]
    split
    · rfl
    · simp [post,ih]

variable (x : α)

lemma locate_plug [DecidableEq α] (t n : RbTree α) (p q : Path α) (h : locate x t p = some (n,q))
    :
    plug q n = plug p t ∧ ∃ c l g r, n = node c l x g r := by
  induction t generalizing p with
  | nil => simp [locate] at h
  | node c l y g r ihl ihr =>
    rw [locate] at h
    split at h
    · next hy =>
      cases h
      exact ⟨rfl,c,l,g,r,hy ▸ rfl⟩
    · rcases hl : locate x l (⟨.left,c,y,g,r⟩::p) with _ | z
      · rw [hl] at h
        exact ihr _ h
      · rw [hl] at h
        cases h
        exact ihl _ hl

lemma locate_of_mem [DecidableEq α] (t : RbTree α) (p : Path α) (h : x ∈ t.toList) :
    ∃ c l g r q, locate x t p = some (node c l x g r,q) := by
  suffices h : (locate x t p).isSome by
    obtain ⟨⟨n,q⟩,hz⟩ := Option.isSome_iff_exists.mp h
    obtain ⟨c,l,g,r,rfl⟩ := (locate_plug x t n p q hz).2
    exact ⟨c,l,g,r,q,hz⟩
  induction t generalizing p with
  | nil => simp [toList] at h
  | node c l y g r ihl ihr =>
    rw [locate]
    split
    · rfl
    · next hy =>
      simp only [toList,List.mem_append,List.mem_cons] at h
      rcases h with h | rfl | h
      · have hl := ihl (⟨.left,c,y,g,r⟩::p) h
        obtain ⟨z,hz⟩ := Option.isSome_iff_exists.mp hl
        rw [hz]
        rfl
      · exact absurd rfl hy
      · have hr := ihr (⟨.right,c,y,g,l⟩::p) h
        cases locate x l (⟨.left,c,y,g,r⟩::p) with
        | none => exact hr
        | some z => rfl

@[simp] lemma to_list_update [DecidableEq α] (own : α → ℕ) (x : α) (t : RbTree α) :
    (update own x t).toList = t.toList := by
  rw [update]
  split
  · next c l y g r p h =>
    dsimp only
    split
    · rfl
    · rw [← show plug p (node c l y g r) = t from (locate_plug x t _ [] p h).1]
      simp [to_list_plug,toList]
  · rfl

variable (ds : List Dir)

lemma descend_plug (t : RbTree α) (p q : Path α) (h : descend ds t p = some q) :
    plug q nil = plug p t := by
  fun_induction descend ds t p with
  | case1 => exact Option.some.inj h ▸ rfl
  | case2 ds c l x g r p ih | case3 ds c l x g r p ih => exact ih h
  | case4 => exact absurd h (by simp)

lemma to_list_insert_color (own : α → ℕ) (p : Path α) (n : RbTree α) :
    (insertColor own p n).toList = (plug p n).toList := by
  fun_induction insertColor own p n with
  | case1 n => simp [plug]
  | case2 f n | case3 f g p n hf => rfl
  | case4 f g p n hf hg ih =>
    rw [ih]
    simp [to_list_plug,plug,to_list_join]
  | case5 f g p n hf hg hd =>
    simp only [to_list_plug,plug,to_list_join,hd]
    cases g.dir <;> simp
  | case6 => rfl
  | case7 f g p hf hg hd c l x a r near far =>
    simp only [to_list_plug,plug,to_list_join,near,far]
    cases hfd : f.dir <;> cases hgd : g.dir <;> simp_all [child,Dir.flip,toList]

lemma to_list_insert_at (own : α → ℕ) (ds : List Dir) (x : α) (t : RbTree α) (p : Path α)
    (h : descend ds t [] = some p) : (insertAt own ds x t).toList = pre p++x::post p := by
  simp only [insertAt,h,to_list_insert_color,to_list_plug]
  split <;> simp [toList]

lemma to_list_erase_black (own : α → ℕ) (f : Frame α) (n : RbTree α) :
    (eraseBlack own f n).1.toList = (plug [f] n).toList := by
  unfold eraseBlack
  split
  · next h => simp [plug,h]
  · next c l x a r h =>
    dsimp only
    split
    · simp only [plug,h,to_list_join,to_list_paint]
      cases f.dir <;> simp [child,Dir.flip,toList]
    · split
      · next l' y b r' hn =>
        have hsib := join_child f.dir c l x a r
        rw [hn] at hsib
        simp only [plug,h,to_list_join,to_list_paint]
        rw [← hsib]
        cases f.dir <;> simp [child,Dir.flip,toList,join]
      · simp [plug,to_list_join,h]

lemma to_list_erase_color (own : α → ℕ) (p : Path α) (n : RbTree α) :
    (eraseColor own p n).toList = (plug p n).toList := by
  fun_induction eraseColor own p n with
  | case1 n => rfl
  | case2 f p n l x a r h near far below =>
    simp only [plug,to_list_plug,to_list_join,to_list_erase_black,to_list_paint,below,near, far,h]
    cases f.dir <;> simp [child,Dir.flip,toList]
  | case3 f p n h res hres ih =>
    rw [ih,plug,to_list_plug,to_list_plug,to_list_erase_black]
    rfl
  | case4 f p n h res hres =>
    rw [plug,to_list_plug,to_list_plug,to_list_erase_black]
    rfl

lemma leftmost_plug (l : RbTree α) (x : α) (g : ℕ) (r : RbTree α) (p : Path α) :
    ∃ c' s g' r' q, leftmost (node c l x g r) p = (node c' nil s g' r',q++p) ∧ pre q = [] ∧
      plug q (node c' nil s g' r') = node c l x g r := by
  induction l generalizing c x g r p with
  | nil => exact ⟨c,x,g,r,[],rfl,rfl,rfl⟩
  | node cl ll xl gl rl ihl ihr =>
    obtain ⟨c',s,g',r',q,hq,hpre,hplug⟩ := ihl cl xl gl rl (⟨.left,c,x,g,r⟩::p)
    refine ⟨c',s,g',r',q++[⟨.left,c,x,g,r⟩],?_,?_,?_⟩
    · rw [leftmost,hq]
      simp
    · simp [pre_append,hpre,pre]
    · rw [plug_append,hplug]
      rfl

lemma to_list_erase_node (own : α → ℕ) (p : Path α) (c : Color) (l : RbTree α) (g : ℕ)
    (r : RbTree α) : (eraseNode own p c l g r).toList = pre p++l.toList++r.toList++post p := by
  cases l with
  | nil =>
    cases r with
    | nil =>
      simp only [eraseNode]
      split <;> simp [to_list_erase_color,to_list_plug,toList]
    | node cr lr xr gr rr => simp [eraseNode,to_list_plug,toList]
  | node cl ll xl gl rl =>
    cases r with
    | nil => simp [eraseNode,to_list_plug,toList]
    | node cr lr xr gr rr =>
      obtain ⟨cs,s,gs,rs,inner,hm,hpre,hplug⟩ := leftmost_plug cr lr xr gr rr []
      have hr := congrArg toList hplug
      rw [to_list_plug,hpre] at hr
      rw [← hr]
      simp only [eraseNode,hm]
      have hout : ∀ a, pre (propagate own a (⟨.right,c,s,g,node cl ll xl gl rl⟩::p)) =
          pre p++((node cl ll xl gl rl).toList++[s]) := fun a => by rw [pre_propagate]; rfl
      have hpost : ∀ a, post (propagate own a (⟨.right,c,s,g,node cl ll xl gl rl⟩::p)) =
          post p := fun a => by rw [post_propagate]; rfl
      cases rs with
      | nil =>
        dsimp only
        split <;> simp [to_list_erase_color,to_list_plug,pre_append,post_append,hout,hpost,
          hpre,toList]
      | node => simp [to_list_plug,pre_append,post_append,hout,hpost,hpre,toList]

lemma append_cons_unique (a b u v : List α) (hn : (a++x::b).Nodup) (h : a++x::b = u++x::v) :
    a = u ∧ b = v := by
  obtain ⟨-,hb,hab⟩ := List.nodup_append.mp hn
  have ha : x ∉ a := fun hx => hab x hx x (by simp) rfl
  simpa using (List.append_cons_inj_of_notMem ha (List.nodup_cons.mp hb).1).mp h

lemma to_list_erase [DecidableEq α] (own : α → ℕ) (x : α) (t : RbTree α) (a b : List α)
    (ht : t.toList = a++x::b) (hn : t.toList.Nodup) : (erase own x t).toList = a++b := by
  obtain ⟨c,l,g,r,p,hp⟩ := locate_of_mem x t [] (by simp [ht])
  have hplug := congrArg toList (locate_plug x t _ [] p hp).1
  rw [to_list_plug,plug,ht] at hplug
  obtain ⟨rfl,rfl⟩ := append_cons_unique x a b (pre p++l.toList) (r.toList++post p) (ht ▸ hn)
    (by simp [← hplug,toList])
  rw [erase,hp]
  show (eraseNode own p c l g r).toList = _
  rw [to_list_erase_node]
  simp

/-! ## Recorded maxima -/

def AugOk (own : α → ℕ) : RbTree α → Prop
  | nil => True
  | node _ l x g r => g = computeMax own x l r ∧ AugOk own l ∧ AugOk own r

def PathOk (own : α → ℕ) : ℕ → Path α → Prop
  | _, [] => True
  | a, f::p => f.aug = max (own f.elem) (max a f.sibling.aug) ∧ AugOk own f.sibling ∧
      PathOk own f.aug p

@[simp] lemma aug_join (c : Color) (a : RbTree α) (x : α) (g : ℕ) (b : RbTree α) :
    (join d c a x g b).aug = g := by
  cases d <;> rfl

section

variable (own : α → ℕ)
include own

@[simp] lemma aug_ok_join (d : Dir) (c : Color) (a : RbTree α) (x : α) (g : ℕ) (b : RbTree α) :
    AugOk own (join d c a x g b) ↔ g = computeMax own x a b ∧ AugOk own a ∧ AugOk own b := by
  cases d with
  | left => rfl
  | right =>
    show (g = max (own x) (max b.aug a.aug) ∧ AugOk own b ∧ AugOk own a) ↔ _
    rw [max_comm b.aug,and_comm (a := AugOk own b)]
    rfl

@[simp] lemma aug_ok_paint (c : Color) (t : RbTree α) :
    AugOk own (t.paint c) ↔ AugOk own t := by
  cases t <;> rfl

lemma aug_ok_plug (p : Path α) (t : RbTree α) :
    AugOk own (plug p t) ↔ AugOk own t ∧ PathOk own t.aug p := by
  induction p generalizing t with
  | nil => simp [plug,PathOk]
  | cons f p ih =>
    rw [plug,ih,aug_ok_join,aug_join,PathOk,computeMax]
    tauto

lemma path_ok_append (p q : Path α) (t : RbTree α) (ht : AugOk own t) :
    PathOk own t.aug (p++q) ↔ PathOk own t.aug p ∧ PathOk own (plug p t).aug q := by
  have h := aug_ok_plug own (p++q) t
  rw [plug_append,aug_ok_plug,aug_ok_plug] at h
  tauto

variable (own' : α → ℕ)

lemma aug_ok_congr (t : RbTree α) (heq : ∀ x ∈ t.toList, own x = own' x) (h : AugOk own t) :
    AugOk own' t := by
  induction t with
  | nil => trivial
  | node c l x g r ihl ihr =>
    refine ⟨?_,ihl (fun y hy => heq y (by simp [toList,hy])) h.2.1,
      ihr (fun y hy => heq y (by simp [toList,hy])) h.2.2⟩
    rw [h.1,computeMax,computeMax,heq x (by simp [toList])]

lemma path_ok_congr (a : ℕ) (p : Path α) (heq : ∀ x ∈ pre p++post p, own x = own' x)
    (h : PathOk own a p) : PathOk own' a p := by
  induction p generalizing a with
  | nil => trivial
  | cons f p ih =>
    have hmem : ∀ y, y = f.elem ∨ y ∈ f.sibling.toList ∨ y ∈ pre p++post p → own y = own' y := by
      intro y hy
      apply heq y
      cases hf : f.dir <;> simp [pre,post,hf] at hy ⊢ <;> tauto
    refine ⟨?_,aug_ok_congr own own' f.sibling (fun y hy => hmem y (by simp [hy])) h.2.1,
      ih f.aug (fun y hy => hmem y (.inr (.inr hy))) h.2.2⟩
    rw [h.1,hmem f.elem (.inl rfl)]

lemma propagate_ok (a b : ℕ) (p : Path α) (h : PathOk own a p) :
    PathOk own b (propagate own b p) := by
  induction p generalizing a b with
  | nil => trivial
  | cons f p ih =>
    rw [propagate]
    split
    · next hm => exact ⟨hm.symm,h.2⟩
    · exact ⟨rfl,h.2.1,ih f.aug _ h.2.2⟩

lemma propagate_frame_ok (b : ℕ) (f : Frame α) (p : Path α) (hf : AugOk own f.sibling)
    (h : PathOk own f.aug p) :
    PathOk own b (propagate own b (f::p)) := by
  rw [propagate]
  split
  · next hm => exact ⟨hm.symm,hf,h⟩
  · exact ⟨rfl,hf,propagate_ok own f.aug _ p h⟩

end

variable (own own' : α → ℕ)

lemma located_ok [DecidableEq α] (x : α) (t : RbTree α) (c : Color) (l : RbTree α) (g : ℕ)
    (r : RbTree α) (p : Path α) (hl : locate x t [] = some (node c l x g r,p)) (hn : t.toList.Nodup)
    (heq : ∀ y ∈ t.toList, y ≠ x → own y = own' y) (h : AugOk own t) :
    AugOk own' l ∧ AugOk own' r ∧ PathOk own' g p := by
  have hplug := (locate_plug x t _ [] p hl).1
  have hlist := congrArg toList hplug
  simp only [to_list_plug,plug,toList] at hlist
  rw [← hlist] at hn heq
  have hmem : ∀ y, y ∈ pre p ∨ y ∈ l.toList ∨ y ∈ r.toList ∨ y ∈ post p → own y = own' y := by
    intro y hy
    apply heq y
    · simp only [List.mem_append,List.mem_cons]
      tauto
    · rintro rfl
      simp only [List.nodup_append,List.nodup_cons,List.mem_append,List.mem_cons] at hn
      grind
  rw [← show plug p (node c l x g r) = t from hplug,aug_ok_plug] at h
  exact ⟨aug_ok_congr own own' l (fun y hy => hmem y (by simp [hy])) h.1.2.1,
    aug_ok_congr own own' r (fun y hy => hmem y (by simp [hy])) h.1.2.2,
    path_ok_congr own own' g p (fun y hy => hmem y (by simp at hy; tauto)) h.2⟩

lemma update_ok [DecidableEq α] (x : α) (t : RbTree α) (hx : x ∈ t.toList) (hn : t.toList.Nodup)
    (heq : ∀ y ∈ t.toList, y ≠ x → own y = own' y) (h : AugOk own t) :
    AugOk own' (update own' x t) := by
  obtain ⟨c,l,g,r,p,hp⟩ := locate_of_mem x t [] hx
  obtain ⟨hl,hr,hpath⟩ := located_ok own own' x t c l g r p hp hn heq h
  simp only [update,hp]
  split
  · next hm =>
    rw [← show plug p (node c l x g r) = t from (locate_plug x t _ [] p hp).1,aug_ok_plug]
    exact ⟨⟨hm.symm,hl,hr⟩,hpath⟩
  · rw [aug_ok_plug]
    exact ⟨⟨rfl,hl,hr⟩,propagate_ok own' g _ p hpath⟩

lemma insert_color_ok (p : Path α) (n : RbTree α) (h : AugOk own (plug p n)) :
    AugOk own (insertColor own p n) := by
  fun_induction insertColor own p n with
  | case1 n => exact (aug_ok_paint own .black n).mpr h
  | case2 f n | case3 f g p n hf => exact h
  | case4 f g p n hf hg ih =>
    apply ih
    simpa [plug,aug_ok_plug,computeMax] using h
  | case5 f g p n hf hg hd =>
    simp only [plug,aug_ok_plug,aug_ok_join,aug_join,aug_ok_paint,computeMax,aug_paint] at h ⊢
    grind
  | case6 => exact h
  | case7 f g p hf hg hd c l x a r near far =>
    have hn := join_child g.dir c l x a r
    simp only [plug,aug_ok_plug,aug_ok_join,aug_join,aug_ok_paint,computeMax, aug_paint] at h ⊢
    rw [← hn] at h
    simp only [aug_ok_join,aug_join,computeMax] at h
    simp only [near,far]
    grind

lemma insert_at_ok (ds : List Dir) (x : α) (t : RbTree α) (h : AugOk own t) :
    AugOk own (insertAt own ds x t) := by
  rw [insertAt]
  cases hp : descend ds t [] with
  | none => exact h
  | some p =>
    rw [← show plug p nil = t from descend_plug ds t [] p hp,aug_ok_plug] at h
    apply insert_color_ok
    rw [aug_ok_plug]
    refine ⟨⟨by simp [computeMax,aug],trivial,trivial⟩,?_⟩
    show PathOk own (own x) _
    split
    · next hx => rw [hx]; exact h.2
    · exact propagate_ok own 0 _ p h.2

lemma erase_black_ok (f : Frame α) (n : RbTree α) (h : AugOk own (plug [f] n)) :
    AugOk own (eraseBlack own f n).1 ∧ (eraseBlack own f n).1.aug = f.aug := by
  simp only [plug,aug_ok_join] at h
  unfold eraseBlack
  split
  · next hs => rw [hs] at h; simpa using h
  · next c l x a r hs =>
    have hsib := join_child f.dir c l x a r
    rw [hs,← hsib,aug_ok_join,computeMax,computeMax,aug_join] at h
    dsimp only
    split
    · simp only [aug_ok_join,aug_join,aug_ok_paint,aug_paint,computeMax]
      grind
    · split
      · next l' y b r' hn =>
        have hnear := join_child f.dir .red l' y b r'
        rw [hn,← hnear,aug_ok_join,computeMax,aug_join] at h
        simp only [aug_ok_join,aug_join,aug_ok_paint,aug_paint,computeMax]
        grind
      · simp only [aug_ok_join,aug_join,aug_ok_paint,hs,and_true]
        refine ⟨h.1,h.2.1,?_⟩
        rw [← hsib,aug_ok_join,computeMax]
        exact h.2.2

lemma erase_color_ok (p : Path α) (n : RbTree α) (h : AugOk own (plug p n)) :
    AugOk own (eraseColor own p n) := by
  fun_induction eraseColor own p n with
  | case1 n => exact h
  | case2 f p n l x a r hs near far below =>
    have hsib := join_child f.dir .red l x a r
    simp only [plug,aug_ok_plug,aug_ok_join,aug_join] at h
    rw [hs,← hsib,aug_ok_join,computeMax,computeMax,aug_join] at h
    have hbelow : AugOk own (plug [below] n) := by
      simp only [plug,aug_ok_join,aug_ok_paint,below,near]
      exact ⟨by simp [computeMax],h.1.2.1,h.1.2.2.2.1⟩
    obtain ⟨hok,haug⟩ := erase_black_ok own below n hbelow
    simp only [plug,aug_ok_plug,aug_ok_join,aug_join,computeMax]
    refine ⟨⟨?_,hok,h.1.2.2.2.2⟩,h.2⟩
    rw [haug]
    simp only [below,computeMax,near,far]
    grind
  | case3 f p n hs res hres ih =>
    apply ih
    rw [plug,aug_ok_plug,aug_join] at h
    obtain ⟨hok,haug⟩ := erase_black_ok own f n h.1
    rw [aug_ok_plug,haug]
    exact ⟨hok,h.2⟩
  | case4 f p n hs res hres =>
    rw [plug,aug_ok_plug,aug_join] at h
    obtain ⟨hok,haug⟩ := erase_black_ok own f n h.1
    rw [aug_ok_plug,haug]
    exact ⟨hok,h.2⟩

lemma erase_node_ok (p : Path α) (c : Color) (l : RbTree α) (g : ℕ) (r : RbTree α)
    (hl : AugOk own l) (hr : AugOk own r) (hp : PathOk own g p) :
    AugOk own (eraseNode own p c l g r) := by
  cases l with
  | nil =>
    cases r with
    | nil =>
      have hq : AugOk own (plug (propagate own 0 p) (nil : RbTree α)) :=
        (aug_ok_plug ..).mpr ⟨trivial,propagate_ok own g 0 p hp⟩
      simp only [eraseNode]
      split
      · exact erase_color_ok own _ _ hq
      · exact hq
    | node cr lr xr gr rr => exact (aug_ok_plug ..).mpr ⟨hr,propagate_ok own g gr p hp⟩
  | node cl ll xl gl rl =>
    cases r with
    | nil => exact (aug_ok_plug ..).mpr ⟨hl,propagate_ok own g gl p hp⟩
    | node cr lr xr gr rr =>
      obtain ⟨cs,s,gs,rs,inner,hm,hpre,hplug⟩ := leftmost_plug cr lr xr gr rr []
      rw [← hplug,aug_ok_plug] at hr
      have hinner : PathOk own rs.aug (propagate own rs.aug inner) :=
        propagate_ok own gs rs.aug inner hr.2
      have hrs : AugOk own rs := hr.1.2.2
      have hall : AugOk own (plug (propagate own rs.aug inner++
          propagate own (plug (propagate own rs.aug inner) rs).aug
            (⟨.right,c,s,g,node cl ll xl gl rl⟩::p)) rs) := by
        rw [aug_ok_plug,path_ok_append own _ _ rs hrs]
        exact ⟨hrs,hinner,propagate_frame_ok own _ ⟨.right,c,s,g,node cl ll xl gl rl⟩ p hl hp⟩
      simp only [eraseNode,hm,List.append_nil]
      cases rs with
      | nil =>
        dsimp only
        split
        · exact erase_color_ok own _ _ hall
        · exact hall
      | node crs lrs xrs grs rrs =>
        rw [aug_ok_plug] at hall ⊢
        exact hall

lemma erase_ok [DecidableEq α] (x : α) (t : RbTree α) (hx : x ∈ t.toList) (hn : t.toList.Nodup)
    (heq : ∀ y ∈ t.toList, y ≠ x → own y = own' y) (h : AugOk own t) :
    AugOk own' (erase own' x t) := by
  obtain ⟨c,l,g,r,p,hp⟩ := locate_of_mem x t [] hx
  obtain ⟨hl,hr,hpath⟩ := located_ok own own' x t c l g r p hp hn heq h
  rw [erase,hp]
  exact erase_node_ok own' p c l g r hl hr hpath

/-! ## Slots -/

/-- A tree without its recorded maxima. -/
def strip : RbTree α → RbTree α
  | nil => nil
  | node c l x _ r => node c (strip l) x 0 (strip r)

def stripFrame (f : Frame α) : Frame α := {f with aug := 0, sibling := strip f.sibling}

lemma to_list_strip : (strip t).toList = t.toList := by
  induction t with
  | nil => rfl
  | node c l x g r ihl ihr => simp [strip,toList,ihl,ihr]

lemma pre_strip : pre (p.map stripFrame) = pre p := by
  induction p with
  | nil => rfl
  | cons f p ih =>
    rw [List.map_cons,pre,pre,ih]
    simp [stripFrame,to_list_strip]

lemma post_strip : post (p.map stripFrame) = post p := by
  induction p with
  | nil => rfl
  | cons f p ih =>
    rw [List.map_cons,post,post,ih]
    simp [stripFrame,to_list_strip]

lemma strip_plug (t : RbTree α) : strip (plug p t) = plug (p.map stripFrame) (strip t) := by
  induction p generalizing t with
  | nil => rfl
  | cons f p ih =>
    rw [List.map_cons,plug,plug,ih]
    cases hf : f.dir <;> simp [stripFrame,join,strip,hf]

lemma strip_propagate (a : ℕ) (p : Path α) :
    (propagate own a p).map stripFrame = p.map stripFrame := by
  induction p generalizing a with
  | nil => rfl
  | cons f p ih =>
    rw [propagate]
    split
    · rfl
    · simp [stripFrame,ih]

lemma strip_update [DecidableEq α] (x : α) (t : RbTree α) : strip (update own x t) = strip t := by
  rw [update]
  split
  · next c l y g r p h =>
    dsimp only
    split
    · rfl
    · rw [← show plug p (node c l y g r) = t from (locate_plug x t _ [] p h).1]
      rw [strip_plug,strip_plug,strip_propagate]
      rfl
  · rfl

lemma descend_strip (t : RbTree α) (p : Path α) :
    descend ds (strip t) (p.map stripFrame) = (descend ds t p).map (List.map stripFrame) := by
  fun_induction descend ds t p with
  | case1 => rfl
  | case2 ds c l x g r p ih | case3 ds c l x g r p ih => exact ih
  | case4 ds t p h1 h2 h3 =>
    cases t with
    | nil =>
      cases ds with
      | nil => exact (h1 rfl rfl).elim
      | cons d ds => cases d <;> rfl
    | node c l x g r =>
      cases ds with
      | nil => rfl
      | cons d ds =>
        cases d with
        | left => exact (h2 ds c l x g r rfl rfl).elim
        | right => exact (h3 ds c l x g r rfl rfl).elim

def Slot (ds : List Dir) (t : RbTree α) (a b : List α) : Prop :=
  ∃ p, descend ds t [] = some p ∧ pre p = a ∧ post p = b

lemma slot_update [DecidableEq α] (x : α) (ds : List Dir) (t : RbTree α) (a b : List α)
    (h : Slot ds t a b) : Slot ds (update own x t) a b := by
  obtain ⟨p,hp,rfl,rfl⟩ := h
  have hs := descend_strip ds (update own x t) []
  rw [strip_update,descend_strip ds t [],hp] at hs
  obtain ⟨q,hq,hqp⟩ := Option.map_eq_some_iff.mp hs.symm
  refine ⟨q,hq,?_,?_⟩
  · rw [← pre_strip,hqp,pre_strip]
  · rw [← post_strip,hqp,post_strip]

lemma to_list_insert_slot (ds : List Dir) (x : α) (t : RbTree α) (a b : List α)
    (h : Slot ds t a b) : (insertAt own ds x t).toList = a++x::b := by
  obtain ⟨p,hp,rfl,rfl⟩ := h
  exact to_list_insert_at own ds x t p hp

end Clio.Rbtree
