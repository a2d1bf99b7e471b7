import Robins.Cps.Transaction
import Robins.Lib.RoseTree

/-!
# One tree, read in two ways

A target of the command line is a node by its id, or by the account that is its identity.  The
first is answered with ids and the second with accounts: the runtime shows an account in place of
each node of the answer, and refuses the answer as a whole if one of them has no identity.

## The forest

The chain at a block is a forest, with accounts bound to some of its nodes.  What a read should
come to is said of the forest alone: `locate`, `parentOf`, `childrenOf` and `treeOf`, each in the
projection of its target.  A tree is cut at the depth that was asked for, and every node of it is
in its place, with an account in place of every node or of none.

## Reads

A read of it asks many questions, each of which may fail at any time.  `Honest` is what can be said
of such a read: if it succeeds it says what the forest says.  It composes (`Honest.bind`), so a
read of a tree, which is a recursion through the children of each node, is honest because its
questions are (`honest_read`).  The recursion is on the levels below a node, of which there are
finitely many; with as much fuel a read always ends (`isSome_read`).

`Navigates` has the results for targets, parents, children and trees together.
-/

namespace Robins
namespace Cps

/-! ## Targets -/

abbrev AccountId := FixedBytes 32

/-- A node addressed by id or by identity account. -/
inductive Target where
  | node (id : UInt64)
  | address (account : AccountId)
  deriving DecidableEq

/-- How accounts are written. -/
structure Ss58 where
  toText : AccountId → String
  fromStr : String → Option AccountId

/-- Topology of a node. -/
structure NodeInfo where
  parent : Option UInt64
  scope : Option UInt64
  deriving DecidableEq

/-- Why an answer in accounts is refused. -/
inductive AddressViewError where
  | identityNotFound
  | missingProjectedIdentity
  deriving DecidableEq

/-- A pinned block: the storage, and the view functions of the runtime. -/
structure At where
  nodes : UInt64 → Except String (Option NodeInfo)
  children : UInt64 → Except String (Option (List UInt64))
  nodeByIdentity : AccountId → Except String (Option UInt64)
  viewParent : AccountId → Except String (Except AddressViewError (Option AccountId))
  viewChildren : AccountId → Except String (Except AddressViewError (List AccountId))

/-! ## Reads -/

/-- The error of a failed query. -/
def runtime {α : Type} : Except String α → Except Error α
  | .error source => .error (.runtime source)
  | .ok a => .ok a

/-- The error of an answer that was refused. -/
def addressView {α : Type} (ss58 : Ss58) (account : AccountId) :
    Except AddressViewError α → Except Error α
  | .error .identityNotFound => .error (.identityNotFound (ss58.toText account))
  | .error .missingProjectedIdentity => .error .missingProjectedIdentity
  | .ok a => .ok a

section

variable (ss58 : Ss58) (block : At)

def readInfo (node : UInt64) : Except Error (Option NodeInfo) := runtime (block.nodes node)

def readParent (node : UInt64) : Except Error (Option UInt64) :=
  readInfo block node >>= fun info => .ok (info.bind NodeInfo.parent)

def readChildren (node : UInt64) : Except Error (List UInt64) :=
  runtime (block.children node) >>= fun children => .ok (children.getD [])

def readNodeByIdentity (account : AccountId) : Except Error (Option UInt64) :=
  runtime (block.nodeByIdentity account)

def addressParent (account : AccountId) : Except Error (Option AccountId) :=
  runtime (block.viewParent account) >>= addressView ss58 account

def addressChildren (account : AccountId) : Except Error (List AccountId) :=
  runtime (block.viewChildren account) >>= addressView ss58 account

def Target.nodeId : Target → Except Error UInt64
  | .node id =>
    readInfo block id >>= fun info => if info.isNone then .error (.nodeNotFound id) else .ok id
  | .address account =>
    readNodeByIdentity block account >>= fun node =>
      node.elim (.error (.identityNotFound (ss58.toText account))) .ok

/-- Parent in the projection of the target, `none` for a root. -/
def Target.parent (target : Target) : Except Error (Option Target) :=
  target.nodeId ss58 block >>= fun _ =>
    match target with
    | .node id => readParent block id >>= fun parent => .ok (parent.map .node)
    | .address account => addressParent ss58 block account >>= fun parent =>
      .ok (parent.map .address)

def Target.children (target : Target) : Except Error (List Target) :=
  target.nodeId ss58 block >>= fun _ =>
    match target with
    | .node id => readChildren block id >>= fun children => .ok (children.map .node)
    | .address account => addressChildren ss58 block account >>= fun children =>
      .ok (children.map .address)

/-- Recursive subtree in one projection. -/
abbrev Tree := RoseTree Target

/-- The trees of the children, one after the other, up to the first failure. -/
def readAll (read : Target → Option (Except Error Tree)) :
    List Target → Option (Except Error (List Tree))
  | [] => some (.ok [])
  | child :: children =>
    match read child with
    | none => none
    | some (.error e) => some (.error e)
    | some (.ok tree) => (readAll read children).map fun r => r >>= fun trees => .ok (tree :: trees)

/-- Read the subtree of a target, descending at most `depth` levels below it (`none`: unlimited).
Nothing if it takes more nested calls than the fuel. -/
def Tree.read : ℕ → Target → Option ℕ → Option (Except Error Tree)
  | 0, _, _ => none
  | fuel + 1, target, depth =>
    if depth ≠ some 0 then
      match target.children ss58 block with
      | .error e => some (.error e)
      | .ok children =>
        (readAll (fun child => Tree.read fuel child (depth.map (· - 1))) children).map fun r =>
          r >>= fun trees => .ok (.node target trees)
    else some (target.nodeId ss58 block >>= fun _ => .ok (.node target []))

end

/-! ## The forest -/

/-- The nodes of the chain at a block, with identity accounts bound to some of them. -/
structure Forest where
  info : UInt64 → Option NodeInfo
  children : UInt64 → List UInt64
  bound : AccountId → Option UInt64
  identity : UInt64 → Option AccountId
  /-- How far the forest goes on below a node. -/
  height : UInt64 → ℕ
  parent_of_mem : ∀ n, ∀ c ∈ children n, ∃ info', info c = some info' ∧ info'.parent = some n
  height_lt : ∀ n, ∀ c ∈ children n, height c < height n
  bound_iff : ∀ a n, bound a = some n ↔ identity n = some a
  isSome_of_bound : ∀ a n, bound a = some n → (info n).isSome

/-- A projection onto accounts fails if one is missing. -/
def projected {α : Type} : Option α → Except AddressViewError α
  | none => .error .missingProjectedIdentity
  | some a => .ok a

namespace Forest

variable (forest : Forest)

def parent (n : UInt64) : Option UInt64 := (forest.info n).bind NodeInfo.parent

/-- The view function `parent`: the identity of the parent. -/
def viewParent (a : AccountId) : Except AddressViewError (Option AccountId) :=
  match forest.bound a with
  | none => .error .identityNotFound
  | some n =>
    projected ((forest.parent n).elim (some none) fun p => (forest.identity p).map some)

/-- The view function `children`: the identities of the children. -/
def viewChildren (a : AccountId) : Except AddressViewError (List AccountId) :=
  match forest.bound a with
  | none => .error .identityNotFound
  | some n => projected ((forest.children n).mapM forest.identity)

end Forest

/-- What the block answers, when it does, is what the forest says. -/
structure At.Tells (block : At) (forest : Forest) : Prop where
  nodes : ∀ n r, block.nodes n = .ok r → r = forest.info n
  children : ∀ n r, block.children n = .ok r → r.getD [] = forest.children n
  nodeByIdentity : ∀ a r, block.nodeByIdentity a = .ok r → r = forest.bound a
  viewParent : ∀ a r, block.viewParent a = .ok r → r = forest.viewParent a
  viewChildren : ∀ a r, block.viewChildren a = .ok r → r = forest.viewChildren a

/-! ## What the forest says

These are the functions the commands are meant to compute, of the forest and nothing else, and with
the refusals that belong to them: a target that names nobody, and a node that cannot be shown.
Where the forest refuses, a read may fail with this error or with that of a query. -/

/-- All of an answer, or the refusal of it. -/
def whole {α : Type} : Option α → Except Error α
  | none => .error .missingProjectedIdentity
  | some a => .ok a

namespace Forest

variable (ss58 : Ss58) (forest : Forest)

/-- A node in the projection of the target. -/
def shown : Target → UInt64 → Option Target
  | .node _, n => some (.node n)
  | .address _, n => (forest.identity n).map .address

/-- The node of the target. -/
def locate : Target → Except Error UInt64
  | .node n => if (forest.info n).isNone then .error (.nodeNotFound n) else .ok n
  | .address a => (forest.bound a).elim (.error (.identityNotFound (ss58.toText a))) .ok

/-- Parent of the target, in its projection. -/
def parentOf (target : Target) : Except Error (Option Target) :=
  forest.locate ss58 target >>= fun n =>
    whole ((forest.parent n).elim (some none) fun p => (forest.shown target p).map some)

/-- Children of the target, in its projection. -/
def childrenOf (target : Target) : Except Error (List Target) :=
  forest.locate ss58 target >>= fun n => whole ((forest.children n).mapM (forest.shown target))

/-- How deep a read goes below a node. -/
def levels : Option ℕ → UInt64 → ℕ
  | some depth, _ => depth
  | none, n => forest.height n

/-- The nodes below one, as deep as a read goes. -/
def below (depth : Option ℕ) (n : UInt64) : RoseTree UInt64 :=
  RoseTree.span forest.children (forest.levels depth n) n

/-- The tree below the target, in its projection. -/
def treeOf (target : Target) (depth : Option ℕ) : Except Error Tree :=
  forest.locate ss58 target >>= fun n =>
    whole (RoseTree.traverse (forest.shown target) (forest.below depth n))

end Forest

/-! ## Every read says what the forest says

`Honest` is closed under what the commands do with their questions: ask one, and go on with the
answer.  So a command is honest as soon as each of its questions is, and its proof follows its
text. -/

/-- What is read is the truth, unless a query failed. -/
def Honest {α : Type} (r truth : Except Error α) : Prop :=
  r = truth ∨ ∃ source, r = .error (.runtime source)

section

variable {α β : Type} {ss58 : Ss58} {block : At} {forest : Forest}

theorem Honest.of_ok {r truth : Except Error α} (h : Honest r truth) {a : α} (hr : r = .ok a) :
    truth = .ok a := by
  rcases h with rfl | ⟨source, rfl⟩
  · exact hr
  · exact absurd hr (by simp)

theorem Honest.bind {r truth : Except Error α} {f g : α → Except Error β} (h : Honest r truth)
    (hf : ∀ a, truth = .ok a → Honest (f a) (g a)) : Honest (r >>= f) (truth >>= g) := by
  rcases h with rfl | ⟨source, rfl⟩
  · cases r with
    | error e => exact .inl rfl
    | ok a => exact hf a rfl
  · exact .inr ⟨source, rfl⟩

/-- A query that gives the truth when it succeeds. -/
theorem honest_runtime {r : Except String α} {truth : α} (h : ∀ a, r = .ok a → a = truth) :
    Honest (runtime r) (.ok truth) := by
  cases r with
  | error source => exact .inr ⟨source, rfl⟩
  | ok a => exact .inl (congrArg _ (h a rfl))

theorem At.Tells.readInfo (h : block.Tells forest) (n : UInt64) :
    Honest (readInfo block n) (.ok (forest.info n)) := honest_runtime (h.nodes n)

theorem At.Tells.readNodeByIdentity (h : block.Tells forest) (a : AccountId) :
    Honest (readNodeByIdentity block a) (.ok (forest.bound a)) :=
  honest_runtime (h.nodeByIdentity a)

theorem At.Tells.readChildren (h : block.Tells forest) (n : UInt64) :
    Honest (readChildren block n) (.ok (forest.children n)) := by
  show Honest (runtime (block.children n) >>= _) _
  cases hr : block.children n with
  | error source => exact .inr ⟨source, rfl⟩
  | ok r => exact .inl (congrArg _ (h.children n r hr))

theorem At.Tells.nodeId (h : block.Tells forest) (target : Target) :
    Honest (target.nodeId ss58 block) (forest.locate ss58 target) := by
  cases target with
  | node id => exact (h.readInfo id).bind fun _ _ => .inl rfl
  | address a => exact (h.readNodeByIdentity a).bind fun _ _ => .inl rfl

theorem locate_node {n m : UInt64} (h : forest.locate ss58 (.node n) = .ok m) : m = n := by
  rw [Forest.locate] at h
  split at h
  · exact absurd h (by simp)
  · exact (Except.ok.inj h).symm

theorem locate_address {a : AccountId} {n : UInt64}
    (h : forest.locate ss58 (.address a) = .ok n) : forest.bound a = some n := by
  rw [Forest.locate] at h
  cases hbound : forest.bound a with
  | none => rw [hbound] at h; exact absurd h (by simp)
  | some m => rw [hbound] at h; exact congrArg some (Except.ok.inj h)

theorem addressView_projected (a : AccountId) (x : Option α) :
    addressView ss58 a (projected x) = whole x := by
  cases x <;> rfl

theorem whole_bind (x : Option α) (f : α → β) :
    (whole x >>= fun a => .ok (f a)) = whole (x.map f) := by
  cases x <;> rfl

/-- A view function on an account that is bound to a node. -/
theorem honest_view {r : Except String (Except AddressViewError α)}
    {truth : Except AddressViewError α} {a : AccountId} {x : Option α}
    (h : ∀ answer, r = .ok answer → answer = truth) (hx : truth = projected x) (f : α → β) :
    Honest (runtime r >>= addressView ss58 a >>= fun a => .ok (f a)) (whole (x.map f)) := by
  rw [← whole_bind, ← addressView_projected a, ← hx]
  exact ((honest_runtime h).bind fun _ _ => .inl rfl).bind fun _ _ => .inl rfl

variable (ss58) in
theorem At.Tells.childrenOf (h : block.Tells forest) (target : Target) :
    Honest (target.children ss58 block) (forest.childrenOf ss58 target) := by
  refine (h.nodeId target).bind fun n hn => ?_
  cases target with
  | node id =>
    obtain rfl := locate_node hn
    have hall : (forest.children n).mapM (forest.shown (.node n)) =
        some ((forest.children n).map .node) := List.mapM_pure
    rw [hall]
    exact (h.readChildren n).bind fun _ _ => .inl rfl
  | address a =>
    have hview : forest.viewChildren a = projected ((forest.children n).mapM forest.identity) := by
      rw [Forest.viewChildren, locate_address hn]
    have hall : (forest.children n).mapM (forest.shown (.address a)) =
        ((forest.children n).mapM forest.identity).map (List.map Target.address) :=
      RoseTree.mapM_option_map _
    rw [hall]
    exact honest_view (h.viewChildren a) hview (List.map Target.address)

theorem At.Tells.parentOf (h : block.Tells forest) (target : Target) :
    Honest (target.parent ss58 block) (forest.parentOf ss58 target) := by
  refine (h.nodeId target).bind fun n hn => ?_
  cases target with
  | node id =>
    obtain rfl := locate_node hn
    have hparent : Honest (readParent block n) (.ok (forest.parent n)) :=
      (h.readInfo n).bind fun _ _ => .inl rfl
    have hall : ((forest.parent n).elim (some none) fun p =>
        (forest.shown (.node n) p).map some) = some ((forest.parent n).map .node) := by
      cases forest.parent n <;> rfl
    rw [hall]
    exact hparent.bind fun _ _ => .inl rfl
  | address a =>
    have hview : forest.viewParent a = projected ((forest.parent n).elim (some none) fun p =>
        (forest.identity p).map some) := by
      rw [Forest.viewParent, locate_address hn]
    have hall : ((forest.parent n).elim (some none) fun p =>
        (forest.shown (.address a) p).map some) =
        ((forest.parent n).elim (some none) fun p => (forest.identity p).map some).map
          (Option.map Target.address) := by
      cases forest.parent n with
      | none => rfl
      | some p =>
        show ((forest.identity p).map Target.address).map some =
          ((forest.identity p).map some).map _
        cases forest.identity p <;> rfl
    rw [hall]
    exact honest_view (h.viewParent a) hview (Option.map Target.address)

/-! ## Reading a tree

The recursion of the code shows each child in the projection of the target before it goes down to
it, and the forest shows the whole tree at the end.  That the two agree is by the levels: what is
below a target is the target and what is below its children, with one level less (`treeOf_eq`). -/

theorem shown_self {target : Target} {n : UInt64} (h : forest.locate ss58 target = .ok n) :
    forest.shown target n = some target := by
  cases target with
  | node id => rw [locate_node h]; rfl
  | address a =>
    rw [Forest.shown, (forest.bound_iff a n).mp (locate_address h)]
    rfl

variable (ss58) in
/-- A child that is shown is found again, and is shown as its parent is. -/
theorem locate_of_shown {target child : Target} {n c : UInt64} (hc : c ∈ forest.children n)
    (h : forest.shown target c = some child) :
    forest.locate ss58 child = .ok c ∧ forest.shown child = forest.shown target := by
  cases target with
  | node id =>
    obtain rfl : Target.node c = child := Option.some.inj h
    obtain ⟨info', hinfo, -⟩ := forest.parent_of_mem n c hc
    exact ⟨by rw [Forest.locate, hinfo]; rfl, rfl⟩
  | address a =>
    obtain ⟨b, hb, rfl⟩ := Option.map_eq_some_iff.mp h
    exact ⟨by rw [Forest.locate, (forest.bound_iff b c).mpr hb]; rfl, rfl⟩

theorem below_eq {depth : Option ℕ} (hdepth : depth ≠ some 0) (n : UInt64) :
    forest.below depth n =
      .node n ((forest.children n).map (forest.below (depth.map (· - 1)))) := by
  cases depth with
  | some depth =>
    cases depth with
    | zero => exact absurd rfl hdepth
    | succ depth => rfl
  | none =>
    have hle : ∀ c ∈ forest.children n, forest.height c ≤ forest.height n := fun c hc =>
      (forest.height_lt n c hc).le
    calc forest.below none n
        = RoseTree.span forest.children (forest.height n + 1) n :=
          RoseTree.span_of_height_le forest.height_lt le_rfl (Nat.le_succ _)
      _ = .node n ((forest.children n).map (RoseTree.span forest.children (forest.height n))) := rfl
      _ = _ := congrArg (RoseTree.node n) (List.map_congr_left fun c hc =>
          RoseTree.span_of_height_le forest.height_lt (hle c hc) le_rfl)

theorem mapM_whole {p : α → Option β} {f : α → Except Error β} {as : List α}
    (h : ∀ a ∈ as, f a = whole (p a)) : as.mapM f = whole (as.mapM p) := by
  induction as with
  | nil => rfl
  | cons a as ih =>
    rw [List.mapM_cons, RoseTree.mapM_cons_eq, h a List.mem_cons_self,
      ih fun a ha => h a (List.mem_cons_of_mem _ ha)]
    cases p a with
    | none => rfl
    | some b => cases as.mapM p <;> rfl

@[simp] theorem toOption_whole (x : Option α) : (whole x).toOption = x := by cases x <;> rfl

/-- The tree below a child, in the projection of its parent. -/
theorem treeOf_of_shown {target child : Target} {n c : UInt64} {depth : Option ℕ}
    (hc : c ∈ forest.children n) (h : forest.shown target c = some child) :
    forest.treeOf ss58 child depth =
      whole (RoseTree.traverse (forest.shown target) (forest.below depth c)) := by
  obtain ⟨hlocate, hsame⟩ := locate_of_shown ss58 hc h
  rw [Forest.treeOf, hlocate, hsame]
  rfl

/-- One level of the tree below a target. -/
theorem treeOf_eq {depth : Option ℕ} (hdepth : depth ≠ some 0) (target : Target) :
    forest.treeOf ss58 target depth = (forest.childrenOf ss58 target >>= fun children =>
      (children.mapM fun child => forest.treeOf ss58 child (depth.map (· - 1))) >>= fun trees =>
        .ok (.node target trees)) := by
  rw [Forest.treeOf, Forest.childrenOf]
  cases hn : forest.locate ss58 target with
  | error e => rfl
  | ok n =>
    let tree := fun child => forest.treeOf ss58 child (depth.map (· - 1))
    have hbelow : ((forest.children n).mapM (forest.shown target)).bind
        (fun children => children.mapM fun child => (tree child).toOption) =
          ((forest.children n).map (forest.below (depth.map (· - 1)))).mapM
            (RoseTree.traverse (forest.shown target)) :=
      RoseTree.mapM_traverse (fun c _ hc => RoseTree.traverse_span_eq_none hc)
        fun c hc child hshown => by
          show (forest.treeOf ss58 child _).toOption = _
          rw [treeOf_of_shown hc hshown, toOption_whole]
    show whole _ = (whole _ >>= _)
    rw [below_eq hdepth n, RoseTree.traverse_node, shown_self hn, Option.bind_some, ← hbelow]
    cases hall : (forest.children n).mapM (forest.shown target) with
    | none => rfl
    | some children =>
      have htrees : children.mapM tree =
          whole (children.mapM fun child => (tree child).toOption) :=
        mapM_whole fun child hmem => by
          obtain ⟨c, hc, hshown⟩ := RoseTree.mem_of_mapM hall hmem
          show forest.treeOf ss58 child _ = whole (forest.treeOf ss58 child _).toOption
          rw [treeOf_of_shown hc hshown, toOption_whole]
      show whole ((children.mapM fun child => (tree child).toOption).map (RoseTree.node target)) =
        (children.mapM tree >>= fun trees => .ok (RoseTree.node target trees))
      rw [htrees, whole_bind]

theorem honest_readAll {read : Target → Option (Except Error Tree)}
    {truth : Target → Except Error Tree} {children : List Target} {r : Except Error (List Tree)}
    (h : ∀ child ∈ children, ∀ r, read child = some r → Honest r (truth child))
    (hr : readAll read children = some r) : Honest r (children.mapM truth) := by
  induction children generalizing r with
  | nil =>
    obtain rfl := Option.some.inj hr
    exact .inl rfl
  | cons child children ih =>
    have hchild := h child List.mem_cons_self
    have ih : ∀ r, readAll read children = some r → Honest r (children.mapM truth) := fun r hr =>
      ih (fun child hc => h child (List.mem_cons_of_mem _ hc)) hr
    rw [readAll] at hr
    rw [List.mapM_cons]
    cases hread : read child with
    | none => rw [hread] at hr; exact absurd hr (by simp)
    | some result =>
      rw [hread] at hr
      cases result with
      | error e =>
        obtain rfl := Option.some.inj hr
        rcases hchild _ hread with heq | ⟨source, heq⟩
        · rw [← heq]
          exact .inl rfl
        · exact .inr ⟨source, congrArg _ (Except.error.inj heq)⟩
      | ok tree =>
        obtain ⟨rest, hrest, rfl⟩ := Option.map_eq_some_iff.mp hr
        rw [(hchild _ hread).of_ok rfl]
        exact (ih rest hrest).bind fun _ _ => .inl rfl

/-- What is read below a target is what the forest says. -/
theorem honest_read (h : block.Tells forest) {fuel : ℕ} {target : Target} {depth : Option ℕ}
    {r : Except Error Tree} (hr : Tree.read ss58 block fuel target depth = some r) :
    Honest r (forest.treeOf ss58 target depth) := by
  induction fuel generalizing target depth r with
  | zero => exact absurd hr (by simp [Tree.read])
  | succ fuel ih =>
    rw [Tree.read] at hr
    by_cases hdepth : depth = some 0
    · rw [if_neg (not_not.mpr hdepth)] at hr
      obtain rfl := Option.some.inj hr
      refine (h.nodeId target).bind fun n hn => .inl ?_
      rw [hdepth, Forest.below, Forest.levels, RoseTree.span, RoseTree.traverse_node,
        shown_self hn]
      rfl
    · rw [if_pos hdepth] at hr
      rw [treeOf_eq hdepth]
      have hchildren := h.childrenOf ss58 target
      cases hc : target.children ss58 block with
      | error e =>
        rw [hc] at hr hchildren
        obtain rfl := Option.some.inj hr
        rcases hchildren with heq | ⟨source, heq⟩
        · rw [← heq]
          exact .inl rfl
        · exact .inr ⟨source, congrArg _ (Except.error.inj heq)⟩
      | ok children =>
        rw [hc] at hr hchildren
        obtain ⟨trees, htrees, rfl⟩ := Option.map_eq_some_iff.mp hr
        rw [hchildren.of_ok rfl]
        exact (honest_readAll (fun child _ r hr => ih hr) htrees).bind fun _ _ => .inl rfl

/-! ## The whole read -/

theorem locate_of_childrenOf {target : Target} {children : List Target}
    (h : forest.childrenOf ss58 target = .ok children) :
    ∃ n, forest.locate ss58 target = .ok n ∧
      (forest.children n).mapM (forest.shown target) = some children := by
  rw [Forest.childrenOf] at h
  cases hn : forest.locate ss58 target with
  | error e => rw [hn] at h; exact absurd h (by simp [bind, Except.bind])
  | ok n =>
    rw [hn] at h
    refine ⟨n, rfl, ?_⟩
    have := congrArg Except.toOption h
    rwa [show Except.ok n >>= _ = whole _ from rfl, toOption_whole] at this

theorem locate_of_treeOf {target : Target} {depth : Option ℕ} {tree : Tree}
    (h : forest.treeOf ss58 target depth = .ok tree) :
    ∃ n, forest.locate ss58 target = .ok n ∧
      RoseTree.traverse (forest.shown target) (forest.below depth n) = some tree := by
  rw [Forest.treeOf] at h
  cases hn : forest.locate ss58 target with
  | error e => rw [hn] at h; exact absurd h (by simp [bind, Except.bind])
  | ok n =>
    rw [hn] at h
    refine ⟨n, rfl, ?_⟩
    have := congrArg Except.toOption h
    rwa [show Except.ok n >>= _ = whole _ from rfl, toOption_whole] at this

theorem isSome_readAll {read : Target → Option (Except Error Tree)} {children : List Target}
    (h : ∀ child ∈ children, (read child).isSome) : (readAll read children).isSome := by
  induction children with
  | nil => rfl
  | cons child children ih =>
    have ih := ih fun child hc => h child (List.mem_cons_of_mem _ hc)
    obtain ⟨result, hresult⟩ := Option.isSome_iff_exists.mp (h child List.mem_cons_self)
    rw [readAll, hresult]
    cases result with
    | error e => rfl
    | ok tree => rw [Option.isSome_map]; exact ih

variable (ss58 forest) in
/-- How many levels there are below a target. -/
def Forest.rank (target : Target) (depth : Option ℕ) : ℕ :=
  (forest.locate ss58 target).toOption.elim 0 (forest.levels depth)

theorem isSome_read (h : block.Tells forest) {fuel : ℕ} {target : Target} {depth : Option ℕ}
    (hfuel : forest.rank ss58 target depth < fuel) :
    (Tree.read ss58 block fuel target depth).isSome := by
  induction fuel generalizing target depth with
  | zero => exact absurd hfuel (Nat.not_lt_zero _)
  | succ fuel ih =>
    rw [Tree.read]
    split
    · rename_i hdepth
      cases hc : target.children ss58 block with
      | error e => rfl
      | ok children =>
        rw [Option.isSome_map]
        refine isSome_readAll fun child hmem => ih ?_
        obtain ⟨n, hn, hall⟩ := locate_of_childrenOf ((h.childrenOf ss58 target).of_ok hc)
        obtain ⟨c, hchild, hshown⟩ := RoseTree.mem_of_mapM hall hmem
        have hrank : forest.rank ss58 target depth = forest.levels depth n := by
          rw [Forest.rank, hn]
          rfl
        have hrank' : forest.rank ss58 child (depth.map (· - 1)) =
            forest.levels (depth.map (· - 1)) c := by
          rw [Forest.rank, (locate_of_shown ss58 hchild hshown).1]
          rfl
        rw [hrank] at hfuel
        rw [hrank']
        -- one level fewer, or one step further down
        cases depth with
        | none =>
          have := forest.height_lt n c hchild
          simp only [Forest.levels, Option.map_none] at hfuel ⊢
          omega
        | some d =>
          simp only [Forest.levels, Option.map_some] at hfuel ⊢
          have : d ≠ 0 := fun hd => hdepth (congrArg some hd)
          omega
    · rfl

/-- The canonical target of a node that is shown. -/
def Forest.canonical (forest : Forest) : Target → Target
  | .node n => .node n
  | .address a => (forest.bound a).elim (.address a) .node

variable (ss58 block forest) in
/-- What reads of the forest come to. -/
structure Navigates : Prop where
  /-- A read gives the tree below its target, with every node in its place and in the projection
  of the target, unless one of them cannot be shown or a query fails. -/
  tree : ∀ fuel target depth r, Tree.read ss58 block fuel target depth = some r →
    Honest r (forest.treeOf ss58 target depth)
  ends : ∀ target depth, ∃ enough, ∀ fuel, enough < fuel →
    (Tree.read ss58 block fuel target depth).isSome
  /-- A read to some depth is the read without a limit, cut there. -/
  cut : ∀ fuel fuel' target depth t t', Tree.read ss58 block fuel target none = some (.ok t) →
    Tree.read ss58 block fuel' target (some depth) = some (.ok t') → t' = t.cut depth
  /-- A tree of accounts is the tree of the nodes that they are bound to. -/
  canonical : ∀ fuel fuel' account n depth t t', forest.bound account = some n →
    Tree.read ss58 block fuel (.address account) depth = some (.ok t) →
    Tree.read ss58 block fuel' (.node n) depth = some (.ok t') → t.map forest.canonical = t'
  /-- The way up from a child leads back, in either projection. -/
  back : ∀ (target : Target) (children : List Target) (child : Target),
    target.children ss58 block = .ok children → child ∈ children →
    Honest (child.parent ss58 block) (.ok (some target))

/-- **Trees are read faithfully.**  At every block that answers from a forest: a read, of any target
and to any depth, ends; it gives the tree below the target with every node in its place, or the
error of a query or of a node that cannot be shown; a read to some depth is the whole read, cut
there; the tree of accounts is that of their nodes; and the parent of a child is where the child
was found. -/
theorem trees_navigate (ss58 : Ss58) (block : At) (forest : Forest) (h : block.Tells forest) :
    Navigates ss58 block forest := by
  refine ⟨fun fuel target depth r hr => honest_read h hr, fun target depth =>
    ⟨_, fun fuel hfuel => isSome_read h hfuel⟩, ?_, ?_, ?_⟩
  · intro fuel fuel' target depth t t' ht ht'
    obtain ⟨n, hn, hwhole⟩ := locate_of_treeOf ((honest_read h ht).of_ok rfl)
    obtain ⟨n', hn', hcut⟩ := locate_of_treeOf ((honest_read h ht').of_ok rfl)
    obtain rfl : n = n' := Except.ok.inj (hn.symm.trans hn')
    have hspan : forest.below (some depth) n = (forest.below none n).cut depth := by
      rw [Forest.below, Forest.below, Forest.levels, Forest.levels,
        RoseTree.span_of_height_le forest.height_lt le_rfl (Nat.le_add_left _ depth),
        RoseTree.cut_span]
    rw [hspan, RoseTree.traverse_cut depth hwhole] at hcut
    exact (Option.some.inj hcut).symm
  · intro fuel fuel' account n depth t t' hbound ht ht'
    obtain ⟨m, hm, haccounts⟩ := locate_of_treeOf ((honest_read h ht).of_ok rfl)
    obtain ⟨m', hm', hnodes⟩ := locate_of_treeOf ((honest_read h ht').of_ok rfl)
    obtain rfl : n = m := Option.some.inj (hbound.symm.trans (locate_address hm))
    obtain rfl := locate_node hm'
    have hcanonical : t.map forest.canonical = (forest.below depth m').map .node :=
      RoseTree.map_of_traverse (fun c target hshown => by
        obtain ⟨b, hb, rfl⟩ := Option.map_eq_some_iff.mp hshown
        rw [Forest.canonical, (forest.bound_iff b c).mpr hb]
        rfl) haccounts
    have hplain : t'.map id = (forest.below depth m').map .node :=
      RoseTree.map_of_traverse (fun c target hshown => (Option.some.inj hshown).symm) hnodes
    rw [hcanonical, ← hplain, RoseTree.map_id_eq]
  · intro target children child hchildren hmem
    obtain ⟨n, hn, hall⟩ := locate_of_childrenOf ((h.childrenOf ss58 target).of_ok hchildren)
    obtain ⟨c, hc, hshown⟩ := RoseTree.mem_of_mapM hall hmem
    obtain ⟨hlocate, hsame⟩ := locate_of_shown ss58 hc hshown
    obtain ⟨info', hinfo, hparent⟩ := forest.parent_of_mem n c hc
    have htruth : forest.parentOf ss58 child = .ok (some target) := by
      have hup : forest.parent c = some n := by rw [Forest.parent, hinfo]; exact hparent
      rw [Forest.parentOf, hlocate]
      show whole ((forest.parent c).elim _ _) = _
      rw [hup, hsame]
      show whole ((forest.shown target n).map some) = _
      rw [shown_self hn]
      rfl
    rw [← htruth]
    exact h.parentOf child

/-- The block that answers every query. -/
def Forest.snapshot (forest : Forest) : At where
  nodes n := .ok (forest.info n)
  children n := .ok (some (forest.children n))
  nodeByIdentity a := .ok (forest.bound a)
  viewParent a := .ok (forest.viewParent a)
  viewChildren a := .ok (forest.viewChildren a)

theorem Forest.tells_snapshot (forest : Forest) : forest.snapshot.Tells forest where
  nodes _ _ h := (Except.ok.inj h).symm
  children _ _ h := by rw [← Except.ok.inj h]; rfl
  nodeByIdentity _ _ h := (Except.ok.inj h).symm
  viewParent _ _ h := (Except.ok.inj h).symm
  viewChildren _ _ h := (Except.ok.inj h).symm

/-- A root with two children, one of which has no identity. -/
def twoSensors : Forest where
  info n :=
    if n = 1 then some ⟨none, some 7⟩ else if n = 2 ∨ n = 3 then some ⟨some 1, none⟩ else none
  children n := if n = 1 then [2, 3] else []
  bound a :=
    if a = FixedBytes.replicate 32 1 then some 1
    else if a = FixedBytes.replicate 32 2 then some 2 else none
  identity n :=
    if n = 1 then some (FixedBytes.replicate 32 1)
    else if n = 2 then some (FixedBytes.replicate 32 2) else none
  height n := if n = 1 then 1 else 0
  parent_of_mem n c hc := by
    split at hc
    · subst n
      rcases List.mem_cons.mp hc with rfl | hc
      · exact ⟨⟨some 1, none⟩, rfl, rfl⟩
      · obtain rfl := List.mem_singleton.mp hc
        exact ⟨⟨some 1, none⟩, rfl, rfl⟩
    · exact absurd hc List.not_mem_nil
  height_lt n c hc := by
    split at hc
    · subst n
      rcases List.mem_cons.mp hc with rfl | hc
      · decide
      · obtain rfl := List.mem_singleton.mp hc
        decide
    · exact absurd hc List.not_mem_nil
  bound_iff a n := by
    have hne : FixedBytes.replicate 32 1 ≠ FixedBytes.replicate 32 2 := by decide
    constructor <;> intro h <;> split_ifs at h <;> obtain rfl := Option.some.inj h <;>
      subst_vars <;> simp [hne.symm]
  isSome_of_bound a n h := by
    split_ifs at h <;> obtain rfl := Option.some.inj h <;> rfl

theorem trees_navigate_twoSensors :
    Navigates ⟨fun _ => "5C", fun _ => none⟩ twoSensors.snapshot twoSensors ∧
      Tree.read ⟨fun _ => "5C", fun _ => none⟩ twoSensors.snapshot 2 (.node 1) none =
        some (.ok (.node (.node 1) [.node (.node 2) [], .node (.node 3) []])) ∧
      Tree.read ⟨fun _ => "5C", fun _ => none⟩ twoSensors.snapshot 2
        (.address (FixedBytes.replicate 32 1)) none = some (.error .missingProjectedIdentity) :=
  ⟨trees_navigate _ _ _ twoSensors.tells_snapshot, rfl, rfl⟩

end

end Cps
end Robins
