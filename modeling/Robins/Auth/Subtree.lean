import Robins.Auth.Cps
import Robins.Lib.ParentChain

/-!
# Which sensors the subtree holds

A lookup walks from the node a sensor is bound to towards the root of the chain, through a
snapshot that does not change meanwhile.  What the snapshot says need not be a tree: parents may
be missing, chains may be too long or go round.

## What a lookup decides

On every such snapshot a lookup ends, since it follows at most `maxAncestorDepth` parents and
notices a node that it has seen.  `lookup_decides` says what it comes to.  It allows exactly the
sensors bound below the configured root, denies those that are bound nowhere, to the root itself,
or under another root, and says of all others that the tree is inconsistent: never that they are
allowed.

The statement is made with the chain of parents (`Tree.ancestor`) and does not mention the loop.
In between stands `Walked`: after `i` steps the walk has seen nodes of the chain up to the `i`-th
only, and the root is not among these.  Each way in which the loop can end is then a fact about the
rest of the chain.

## The policy decides so

The policy does not run the loop; it makes the same steps one at a time, between those of other
calls, as the answers come in.  `fromTree_of_exec` joins the two: in every run in which the
questions are answered from one tree, each decision that is completed or remembered is the one of
the loop.  `Phase.OnTheWay` carries this through the run, as the outcome that a walk will come to.
-/

namespace Robins
namespace Auth

open Protocol ParentChain

/-! ## The lookup -/

/-- A snapshot of the chain: the answers to the two questions a lookup asks. -/
structure Snapshot where
  nodeOf : SensorId → Except AuthError (Option NodeId)
  lineage : NodeId → Except AuthError Lineage

/-- The loop of `lookup`, with so many lineages left to read. -/
def CpsAuth.follow (auth : CpsAuth) (snapshot : Snapshot) : ℕ → NodeId → List NodeId → Decision
  | 0, _, _ =>
    .error (.inconsistent ("more than " ++ toString maxAncestorDepth ++ " ancestors"))
  | left + 1, current, visited =>
    match snapshot.lineage current with
    | .error err => .error err
    | .ok .missing =>
      .error (.inconsistent ("node " ++ toString current ++ " is missing from the tree"))
    | .ok .root => .ok false
    | .ok (.parent parent) =>
      if parent = auth.root then .ok true
      else if parent ∈ visited then
        .error (.inconsistent ("ancestor cycle at node " ++ toString parent))
      else auth.follow snapshot left parent (parent :: visited)

/-- Decide from the chain, given what the verification of the reader and the request for a
snapshot come to. -/
def CpsAuth.lookup (auth : CpsAuth) (verified : Except AuthError Unit)
    (snapshot : Except AuthError Snapshot) (sensor : SensorId) : Decision :=
  match verified with
  | .error err => .error err
  | .ok () =>
    match snapshot with
    | .error err => .error err
    | .ok snapshot =>
      match snapshot.nodeOf sensor with
      | .error err => .error err
      | .ok none => .ok false
      | .ok (some current) =>
        if current = auth.root then .ok false
        else auth.follow snapshot maxAncestorDepth current [current]

/-! ## Trees -/

/-- What is on the chain: the node each sensor is bound to, and the position of each node. -/
structure Tree where
  binding : SensorId → Option NodeId
  lineage : NodeId → Lineage

/-- The parent of a node, if it has one. -/
def Lineage.parent? : Lineage → Option NodeId
  | .missing | .root => none
  | .parent node => some node

/-- A snapshot of the tree, all of whose queries succeed. -/
def Tree.snapshot (tree : Tree) : Snapshot :=
  ⟨fun sensor => .ok (tree.binding sensor), fun node => .ok (tree.lineage node)⟩

/-- The ancestor of a node so many steps up. -/
def Tree.ancestor (tree : Tree) (k : ℕ) (node : NodeId) : Option NodeId :=
  climb (fun n => (tree.lineage n).parent?) k node

/-- The node hangs below the root, not too deep. -/
def Tree.Below (tree : Tree) (root node : NodeId) : Prop :=
  ∃ k, 1 ≤ k ∧ k ≤ maxAncestorDepth ∧ tree.ancestor k node = some root

/-- The chain of the node ends elsewhere: at a node without a parent, whose lineage is among
the first read, and the root is not met on the way. -/
def Tree.Elsewhere (tree : Tree) (root node : NodeId) : Prop :=
  ∃ k last, k + 1 ≤ maxAncestorDepth ∧ tree.ancestor k node = some last ∧
    tree.lineage last = .root ∧ ∀ j ≤ k, tree.ancestor j node ≠ some root

variable {tree : Tree} {root node : NodeId}

/-- The root is not met above a node without a parent. -/
theorem Tree.Elsewhere.not_below (h : tree.Elsewhere root node) : ¬ tree.Below root node := by
  obtain ⟨k, last, -, hlast, hroot, hnever⟩ := h
  rintro ⟨m, -, -, hm⟩
  have hend : (tree.lineage last).parent? = none := by rw [hroot]; rfl
  exact hnever m (le_of_up_eq_none hlast hend hm) hm

/-! ## The walk

`Walked` is the loop's invariant in terms of the chain.  A walk ends after as many steps as the
bound allows; and as one that meets a node again has seen all that the chain has, it may say that
the root is not there. -/

/-- What a walk from a node may find. -/
inductive Finds (tree : Tree) (root node : NodeId) : Decision → Prop where
  | below (h : tree.Below root node) : Finds tree root node (.ok true)
  | elsewhere (h : tree.Elsewhere root node) : Finds tree root node (.ok false)
  | neither (reason : String) (hbelow : ¬ tree.Below root node)
      (helsewhere : ¬ tree.Elsewhere root node) :
      Finds tree root node (.error (.inconsistent reason))

/-- Where a walk is after `i` steps: it has seen the first nodes of the chain, and the root
was not among them. -/
structure Walked (tree : Tree) (root node : NodeId) (i : ℕ) (current : NodeId)
    (visited : List NodeId) : Prop where
  current_eq : tree.ancestor i node = some current
  mem_visited : ∀ n ∈ visited, ∃ j, j ≤ i ∧ tree.ancestor j node = some n
  not_root : ∀ j ≤ i, tree.ancestor j node ≠ some root

section

variable {i : ℕ} {current parent : NodeId} {visited : List NodeId}

theorem Walked.step (h : Walked tree root node i current visited)
    (hparent : tree.lineage current = .parent parent) (hne : parent ≠ root) :
    Walked tree root node (i + 1) parent (parent :: visited) := by
  have hnext : tree.ancestor (i + 1) node = some parent := by
    rw [Tree.ancestor, climb_succ_of_eq_some h.current_eq, hparent]
    rfl
  refine ⟨hnext, ?_, ?_⟩
  · intro n hn
    rcases List.mem_cons.mp hn with rfl | hn
    · exact ⟨i + 1, le_rfl, hnext⟩
    · obtain ⟨j, hj, hancestor⟩ := h.mem_visited n hn
      exact ⟨j, Nat.le_trans hj (Nat.le_succ i), hancestor⟩
  · intro j hj
    rcases Nat.le_succ_iff.mp hj with hj | rfl
    · exact h.not_root j hj
    · rw [hnext]
      exact fun heq => hne (Option.some.inj heq)

/-- Before the node a walk is at, no chain has ended. -/
theorem Walked.lineage_ne_root (h : Walked tree root node i current visited) {k : ℕ}
    {n : NodeId} (hk : k < i) (hn : tree.ancestor k node = some n) : tree.lineage n ≠ .root := by
  intro hroot
  have hend : (tree.lineage n).parent? = none := by rw [hroot]; rfl
  exact absurd (le_of_up_eq_none hn hend h.current_eq) (by omega)

/-- A chain that breaks off finds nothing. -/
theorem Walked.neither_of_missing (h : Walked tree root node i current visited)
    (hmissing : tree.lineage current = .missing) :
    ¬ tree.Below root node ∧ ¬ tree.Elsewhere root node := by
  have hend : (tree.lineage current).parent? = none := by rw [hmissing]; rfl
  constructor
  · rintro ⟨k, -, -, hk⟩
    exact h.not_root k (le_of_up_eq_none h.current_eq hend hk) hk
  · rintro ⟨k, last, -, hlast, hroot, -⟩
    rcases Nat.lt_or_eq_of_le (le_of_up_eq_none h.current_eq hend hlast) with hk | rfl
    · exact h.lineage_ne_root hk hlast hroot
    · obtain rfl := Option.some.inj (hlast.symm.trans h.current_eq)
      exact absurd (hmissing.symm.trans hroot) (by simp)

/-- A chain that comes back finds nothing. -/
theorem Walked.neither_of_cycle (h : Walked tree root node i current visited)
    (hparent : tree.lineage current = .parent parent) (hvisited : parent ∈ visited) :
    ¬ tree.Below root node ∧ ¬ tree.Elsewhere root node := by
  obtain ⟨j, hj, hancestor⟩ := h.mem_visited parent hvisited
  have hback : tree.ancestor (i + 1) node = tree.ancestor j node := by
    rw [hancestor, Tree.ancestor, climb_succ_of_eq_some h.current_eq, hparent]
    rfl
  constructor
  · rintro ⟨k, -, -, hk⟩
    obtain ⟨m, hm, heq⟩ := exists_climb_eq_of_revisit hj hback k
    exact h.not_root m hm (heq.symm.trans hk)
  · rintro ⟨k, last, -, hlast, hroot, -⟩
    obtain ⟨m, hm, heq⟩ := exists_climb_eq_of_revisit hj hback k
    have hlast : tree.ancestor m node = some last := heq.symm.trans hlast
    rcases Nat.lt_or_eq_of_le hm with hm | rfl
    · exact h.lineage_ne_root hm hlast hroot
    · obtain rfl := Option.some.inj (hlast.symm.trans h.current_eq)
      exact absurd (hparent.symm.trans hroot) (by simp)

/-- A chain that is too long has nothing within reach. -/
theorem Walked.neither_of_depth (h : Walked tree root node maxAncestorDepth current visited) :
    ¬ tree.Below root node ∧ ¬ tree.Elsewhere root node := by
  constructor
  · rintro ⟨k, -, hk, hroot⟩
    exact h.not_root k hk hroot
  · rintro ⟨k, last, hk, hlast, hroot, -⟩
    exact h.lineage_ne_root hk hlast hroot

/-- **What the walk finds**, from wherever it has come to.  The induction is on the steps that
are left; a walk without any has seen as much of the chain as a lookup looks at. -/
theorem finds_of_follow (auth : CpsAuth) {left : ℕ} (hleft : i + left = maxAncestorDepth)
    (h : Walked tree auth.root node i current visited) :
    Finds tree auth.root node (auth.follow tree.snapshot left current visited) := by
  induction left generalizing i current visited with
  | zero =>
    obtain rfl : i = maxAncestorDepth := hleft
    exact .neither _ h.neither_of_depth.1 h.neither_of_depth.2
  | succ left ih =>
    rw [CpsAuth.follow, show tree.snapshot.lineage current = .ok (tree.lineage current) from rfl]
    cases hlineage : tree.lineage current with
    | missing =>
      obtain ⟨hbelow, helsewhere⟩ := h.neither_of_missing hlineage
      exact .neither _ hbelow helsewhere
    | root =>
      exact .elsewhere ⟨i, current, by omega, h.current_eq, hlineage, h.not_root⟩
    | parent parent =>
      dsimp only
      split_ifs with hroot hvisited
      · refine .below ⟨i + 1, by omega, by omega, ?_⟩
        rw [Tree.ancestor, climb_succ_of_eq_some h.current_eq, hlineage, ← hroot]
        rfl
      · obtain ⟨hbelow, helsewhere⟩ := h.neither_of_cycle hlineage hvisited
        exact .neither _ hbelow helsewhere
      · exact ih (by omega) (h.step hlineage hroot)

theorem walked_zero (hne : node ≠ root) : Walked tree root node 0 node [node] where
  current_eq := rfl
  mem_visited := by
    intro n hn
    obtain rfl := List.mem_singleton.mp hn
    exact ⟨0, le_rfl, rfl⟩
  not_root := by
    intro j hj
    obtain rfl := Nat.le_zero.mp hj
    exact fun heq => hne (Option.some.inj heq)

end

/-! ## The decision

The sensor is bound nowhere, or to the root, or the walk from its node decides: it has met the root,
or another root, or it has ended otherwise.  The three answers exclude one another, so each is
given exactly when it is right. -/

/-- The sensor is bound below the root, to another node than the root. -/
def Tree.Allows (tree : Tree) (root : NodeId) (sensor : SensorId) : Prop :=
  ∃ node, tree.binding sensor = some node ∧ node ≠ root ∧ tree.Below root node

/-- The sensor is bound nowhere, to the root itself, or under another root. -/
def Tree.Denies (tree : Tree) (root : NodeId) (sensor : SensorId) : Prop :=
  tree.binding sensor = none ∨ tree.binding sensor = some root ∨
    ∃ node, tree.binding sensor = some node ∧ tree.Elsewhere root node

theorem Tree.Denies.not_allows {sensor : SensorId} (h : tree.Denies root sensor) :
    ¬ tree.Allows root sensor := by
  rintro ⟨node, hbinding, hne, hbelow⟩
  rcases h with hnone | hroot | ⟨node', hbinding', helsewhere⟩
  · exact absurd (hbinding.symm.trans hnone) (by simp)
  · exact hne (Option.some.inj (hbinding.symm.trans hroot))
  · obtain rfl := Option.some.inj (hbinding.symm.trans hbinding')
    exact helsewhere.not_below hbelow

/-- What a lookup may find. -/
inductive Decides (tree : Tree) (root : NodeId) (sensor : SensorId) : Decision → Prop where
  | allow (h : tree.Allows root sensor) : Decides tree root sensor (.ok true)
  | deny (h : tree.Denies root sensor) : Decides tree root sensor (.ok false)
  | neither (reason : String) (hallows : ¬ tree.Allows root sensor)
      (hdenies : ¬ tree.Denies root sensor) :
      Decides tree root sensor (.error (.inconsistent reason))

theorem decides_lookup (auth : CpsAuth) (tree : Tree) (sensor : SensorId) :
    Decides tree auth.root sensor (auth.lookup (.ok ()) (.ok tree.snapshot) sensor) := by
  have hnode : tree.snapshot.nodeOf sensor = .ok (tree.binding sensor) := rfl
  simp only [CpsAuth.lookup, hnode]
  cases hbinding : tree.binding sensor with
  | none => exact .deny (.inl hbinding)
  | some node =>
    dsimp only
    split_ifs with hroot
    · rw [hroot] at hbinding
      exact .deny (.inr (.inl hbinding))
    · have hwalked : Walked tree auth.root node 0 node [node] := walked_zero hroot
      have hfinds := finds_of_follow auth (Nat.zero_add _) hwalked
      generalize auth.follow tree.snapshot maxAncestorDepth node [node] = decision at *
      cases hfinds with
      | below hbelow => exact .allow ⟨node, hbinding, hroot, hbelow⟩
      | elsewhere helsewhere => exact .deny (.inr (.inr ⟨node, hbinding, helsewhere⟩))
      | neither reason hbelow helsewhere =>
        refine .neither reason ?_ ?_
        · rintro ⟨node', hbinding', -, hbelow'⟩
          obtain rfl := Option.some.inj (hbinding.symm.trans hbinding')
          exact hbelow hbelow'
        · rintro (hnone | hat | ⟨node', hbinding', helsewhere'⟩)
          · exact absurd (hbinding.symm.trans hnone) (by simp)
          · exact hroot (Option.some.inj (hbinding.symm.trans hat))
          · obtain rfl := Option.some.inj (hbinding.symm.trans hbinding')
            exact helsewhere helsewhere'

/-- **The subtree decides.**  On every snapshot whose queries succeed, whatever nodes are
missing and whatever chains go round, a lookup allows exactly the sensors bound to another
node below the root, within 256 steps; denies exactly those bound nowhere, to the root, or
under another root within 256 lineages; and of all others says that the tree is
inconsistent. -/
theorem lookup_decides (auth : CpsAuth) (tree : Tree) (sensor : SensorId) :
    (auth.lookup (.ok ()) (.ok tree.snapshot) sensor = .ok true ↔
      tree.Allows auth.root sensor) ∧
    (auth.lookup (.ok ()) (.ok tree.snapshot) sensor = .ok false ↔
      tree.Denies auth.root sensor) ∧
    ((∃ reason, auth.lookup (.ok ()) (.ok tree.snapshot) sensor =
      .error (.inconsistent reason)) ↔
        ¬ tree.Allows auth.root sensor ∧ ¬ tree.Denies auth.root sensor) := by
  have hdecides := decides_lookup auth tree sensor
  generalize auth.lookup (.ok ()) (.ok tree.snapshot) sensor = decision at *
  cases hdecides with
  | allow h =>
    have hnot : ¬ tree.Denies auth.root sensor := fun hdeny => hdeny.not_allows h
    exact ⟨iff_of_true rfl h, iff_of_false (by simp) hnot,
      iff_of_false (by simp) fun hneither => hneither.1 h⟩
  | deny h =>
    exact ⟨iff_of_false (by simp) h.not_allows, iff_of_true rfl h,
      iff_of_false (by simp) fun hneither => hneither.2 h⟩
  | neither reason hallows hdenies =>
    exact ⟨iff_of_false (by simp) hallows, iff_of_false (by simp) hdenies,
      iff_of_true ⟨reason, rfl⟩ ⟨hallows, hdenies⟩⟩

/-! ## The policy decides so -/

section

variable {auth : CpsAuth} {caches : Caches}

/-- What a walk will come to on this tree. -/
def Walk.outcome (auth : CpsAuth) (tree : Tree) : Walk → Decision
  | .done decision => decision
  | .ask current visited left => auth.follow tree.snapshot (left + 1) current visited

theorem outcome_bound (auth : CpsAuth) (tree : Tree) (sensor : SensorId) :
    (auth.bound (tree.binding sensor)).outcome auth tree =
      auth.lookup (.ok ()) (.ok tree.snapshot) sensor := by
  have hnode : tree.snapshot.nodeOf sensor = .ok (tree.binding sensor) := rfl
  simp only [CpsAuth.lookup, hnode]
  cases tree.binding sensor with
  | none => rfl
  | some node =>
    dsimp only [CpsAuth.bound]
    split_ifs
    · rfl
    · rfl

theorem outcome_climb (auth : CpsAuth) (tree : Tree) (current : NodeId) (visited : List NodeId)
    (left : ℕ) :
    (auth.climb current visited left (tree.lineage current)).outcome auth tree =
      auth.follow tree.snapshot (left + 1) current visited := by
  rw [CpsAuth.follow, show tree.snapshot.lineage current = .ok (tree.lineage current) from rfl]
  cases tree.lineage current with
  | missing => rfl
  | root => rfl
  | parent parent =>
    unfold CpsAuth.climb
    dsimp only
    split_ifs
    · rfl
    · rfl
    · cases left with
      | zero => rfl
      | succ left => rfl

/-- Whoever answers the questions of a lookup answers them from the tree. -/
def AnswersFrom (tree : Tree) (s : State caches) : Event → Prop
  | .nodeOf id (.ok node) => ∀ call, s.calls id = some call → node = tree.binding call.sensor
  | .lineage id (.ok lineage) => ∀ call current visited left, s.calls id = some call →
      call.phase = .climbing current visited left → lineage = tree.lineage current
  | _ => True

/-- A call for a sensor is on the way to what a lookup decides, or has it. -/
def Phase.OnTheWay (auth : CpsAuth) (tree : Tree) (sensor : SensorId) : Phase → Prop
  | .climbing current visited left => auth.follow tree.snapshot (left + 1) current visited =
      auth.lookup (.ok ()) (.ok tree.snapshot) sensor
  | .decided allowed => auth.lookup (.ok ()) (.ok tree.snapshot) sensor = .ok allowed
  | .storing entry _ => auth.lookup (.ok ()) (.ok tree.snapshot) sensor = .ok entry.allowed
  | _ => True

/-- Every decision shown is that of a lookup on the tree. -/
def Observation.FromTree (auth : CpsAuth) (tree : Tree) : Observation → Prop
  | .completed _ sensor allowed =>
    auth.lookup (.ok ()) (.ok tree.snapshot) sensor = .ok allowed
  | .stored _ sensor allowed _ =>
    auth.lookup (.ok ()) (.ok tree.snapshot) sensor = .ok allowed
  | _ => True

/-- All calls are on the way. -/
def State.OnTheWay (auth : CpsAuth) (tree : Tree) (s : State caches) : Prop :=
  ∀ id call, s.calls id = some call → call.phase.OnTheWay auth tree call.sensor

variable {s s' : State caches} {o : List Observation}

theorem onTheWay_update (h : s.OnTheWay auth tree) {id : ℕ} {x : Option Call}
    (hx : ∀ call, x = some call → call.phase.OnTheWay auth tree call.sensor)
    (hcalls : s'.calls = Function.update s.calls id x) : s'.OnTheWay auth tree := by
  intro id' call hcall
  rw [hcalls] at hcall
  by_cases heq : id' = id
  · rw [heq, Function.update_self] at hcall
    exact hx call hcall
  · rw [Function.update_of_ne heq] at hcall
    exact h id' call hcall

theorem onTheWay_goto (h : s.OnTheWay auth tree) (id : ℕ) (call : Call) (phase : Phase)
    (hphase : phase.OnTheWay auth tree call.sensor)
    (hcalls : s'.calls = (s.goto id call phase).calls) : s'.OnTheWay auth tree := by
  refine onTheWay_update h (x := some { call with phase }) ?_ hcalls
  intro call' hcall'
  rw [← Option.some.inj hcall']
  exact hphase

theorem onTheWay_finish (h : s.OnTheWay auth tree) (id : ℕ)
    (hcalls : s'.calls = (s.finish id).calls) : s'.OnTheWay auth tree :=
  onTheWay_update h (x := none) (by simp) hcalls

/-- A walk that will come to the right decision keeps its call on the way. -/
theorem onTheWay_walk (h : s.OnTheWay auth tree) (id : ℕ) {call : Call} {walk : Walk}
    (houtcome : walk.outcome auth tree = auth.lookup (.ok ()) (.ok tree.snapshot) call.sensor) :
    (s.walk id call walk).1.OnTheWay auth tree ∧
      ∀ a ∈ (s.walk id call walk).2, a.FromTree auth tree := by
  match walk with
  | .ask current visited left =>
    exact ⟨onTheWay_goto h id call _ (by exact houtcome) rfl, by simp [State.walk]⟩
  | .done (.ok allowed) =>
    have hlookup : auth.lookup (.ok ()) (.ok tree.snapshot) call.sensor = .ok allowed :=
      houtcome.symm
    refine ⟨onTheWay_goto h id call _ (by exact hlookup) rfl, ?_⟩
    intro a ha
    obtain rfl := List.mem_singleton.mp ha
    exact hlookup
  | .done (.error error) =>
    refine ⟨onTheWay_finish h id rfl, ?_⟩
    intro a ha
    obtain rfl := List.mem_singleton.mp ha
    trivial

/-- **One step**, when the answers come from the tree. -/
theorem onTheWay_step (h : s.OnTheWay auth tree) {e : Event} (hanswers : AnswersFrom tree s e)
    (hstep : auth.step s e = some (s', o)) :
    s'.OnTheWay auth tree ∧ ∀ a ∈ o, a.FromTree auth tree := by
  have hnothing : ∀ a ∈ ([] : List Observation), a.FromTree auth tree := by simp
  -- the two questions of a lookup are answered, everything else is one of the moves
  by_cases hquestion : ∃ id, e.Answers id
  · obtain ⟨id, hid⟩ := hquestion
    cases e with
    | nodeOf id' result =>
      obtain ⟨call, hcall, hrun⟩ := Option.bind_eq_some_iff.mp hstep
      split at hrun
      · next node hphase =>
        obtain rfl := hanswers call hcall
        have hwalk := onTheWay_walk h id' (outcome_bound auth tree call.sensor)
        rwa [Option.some.inj hrun] at hwalk
      · obtain ⟨rfl, rfl⟩ := Prod.mk.inj (Option.some.inj hrun)
        exact ⟨onTheWay_finish h id' rfl, List.forall_mem_singleton.mpr (by trivial)⟩
      · exact absurd hrun (by simp)
    | lineage id' result =>
      obtain ⟨call, hcall, hrun⟩ := Option.bind_eq_some_iff.mp hstep
      split at hrun
      · next current visited left lineage hphase =>
        obtain rfl := hanswers call current visited left hcall hphase
        have hway := h id' call hcall
        rw [hphase] at hway
        have hwalk := onTheWay_walk h id'
          ((outcome_climb auth tree current visited left).trans hway)
        rwa [Option.some.inj hrun] at hwalk
      · obtain ⟨rfl, rfl⟩ := Prod.mk.inj (Option.some.inj hrun)
        exact ⟨onTheWay_finish h id' rfl, List.forall_mem_singleton.mpr (by trivial)⟩
      · exact absurd hrun (by simp)
    | _ => exact hid.elim
  · cases move_of_step hstep with
    | tick => exact ⟨h, hnothing⟩
    | call =>
      refine ⟨onTheWay_update h ?_ rfl, hnothing⟩
      intro call hcall
      rw [← Option.some.inj hcall]
      trivial
    | look => exact ⟨onTheWay_goto h _ _ _ (by trivial) rfl, hnothing⟩
    | hit =>
      exact ⟨onTheWay_finish h _ rfl, List.forall_mem_singleton.mpr (by trivial)⟩
    | miss =>
      exact ⟨onTheWay_finish h _ rfl, List.forall_mem_singleton.mpr (by trivial)⟩
    | enter => exact ⟨onTheWay_goto h _ _ _ (by trivial) rfl, hnothing⟩
    | proceed => exact ⟨onTheWay_goto h _ _ _ (by trivial) rfl, hnothing⟩
    | begin => exact ⟨onTheWay_goto h _ _ _ (by trivial) rfl, hnothing⟩
    | verified =>
      exact ⟨onTheWay_goto h _ _ _ (by trivial) rfl, List.forall_mem_singleton.mpr (by trivial)⟩
    | pinned => exact ⟨onTheWay_goto h _ _ _ (by trivial) rfl, hnothing⟩
    | ask hanswer => exact absurd ⟨_, hanswer⟩ hquestion
    | completed hanswer => exact absurd ⟨_, hanswer⟩ hquestion
    | fail =>
      exact ⟨onTheWay_finish h _ rfl, List.forall_mem_singleton.mpr (by trivial)⟩
    | cancel => exact ⟨onTheWay_finish h _ rfl, hnothing⟩
    | @entry id call allowed hcall hphase =>
      have hway := h id call hcall
      rw [hphase] at hway
      exact ⟨onTheWay_goto h id call _ (by exact hway) rfl, hnothing⟩
    | @store id call entry since hcall hphase =>
      have hway := h id call hcall
      rw [hphase] at hway
      refine ⟨onTheWay_finish h id rfl, fun a ha => ?_⟩
      rcases List.mem_cons.mp ha with rfl | ha
      · exact hway
      · obtain rfl := List.mem_singleton.mp ha
        trivial

/-- **The policy decides what a lookup decides.**  In every run in which the questions are
answered from one tree, whatever else happens between them, every decision that is completed
or remembered is the one of `lookup`. -/
theorem fromTree_of_exec {es : List Event} {h : List Observation}
    (hrun : (cpsMachine auth caches).exec (auth.start caches) es = some (s, h))
    (hanswers : (cpsMachine auth caches).StepsMeet (AnswersFrom tree) (auth.start caches) es) :
    ∀ a ∈ h, a.FromTree auth tree := by
  have hboth : s.OnTheWay auth tree ∧ ∀ a ∈ h, a.FromTree auth tree := by
    refine EventMachine.exec_induction_of_stepsMeet (C := AnswersFrom tree)
      (P := fun _ h s => State.OnTheWay auth tree s ∧ ∀ a ∈ h, a.FromTree auth tree)
      ⟨by simp [State.OnTheWay, CpsAuth.start], by simp⟩ ?_ hrun hanswers
    rintro es h s e s' o - ⟨hway, htree⟩ he hstep
    obtain ⟨hway', ho⟩ := onTheWay_step hway he hstep
    exact ⟨hway', fun a ha => (List.mem_append.mp ha).elim (htree a) (ho a)⟩
  exact hboth.2

end

end Auth
end Robins
