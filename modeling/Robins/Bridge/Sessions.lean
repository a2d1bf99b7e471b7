import Mathlib.Data.List.Nodup
import Robins.Bridge.Entries

/-!
# The sessions of the MQTT bridges

All entries of a configuration are started concurrently, each with its own connection to the
broker.  A broker knows a session by its client id: of two clients with one id, the one that came
first is disconnected, connects again, and disconnects the other.  So the bridges of a
configuration work side by side only if their ids are distinct.

The id is the one of the configuration, if it has one, and else made of the direction of the entry
and its node.  The first is the same for all entries; the second tells entries apart by direction
and node, and by nothing else.  `sessions_distinct_iff` says when this is enough: for the bridges
that come to connect, which need not be all, since a bridge with a wrong key or an unknown node
ends before.

That generated ids of different nodes differ is a fact about decimal numbers, and that those of
different directions do, one about the texts in front of them.
-/

namespace Robins
namespace Bridge

/-- Blockchain connection settings. -/
structure BlockchainConfigData where
  wsUrl : Option String
  suri : Option String

structure Config where
  clientId : Option String
  blockchain : Option BlockchainConfigData
  subscribe : List SubscribeConfig
  publish : List PublishConfig

/-- A bridge that is run in a task of its own. -/
inductive Task where
  | subscribe (entry : SubscribeConfig)
  | publish (entry : PublishConfig)

/-- The tasks that `start` spawns, in this order. -/
def Config.tasks (config : Config) : List Task :=
  config.subscribe.map .subscribe ++ config.publish.map .publish

/-- The id under which a subscribe bridge connects. -/
def Config.subscribeClientId (config : Config) (nodeId : UInt64) : String :=
  config.clientId.getD ("cps-sub-" ++ toString nodeId.toNat)

/-- The id under which a publish bridge connects. -/
def Config.publishClientId (config : Config) (nodeId : UInt64) : String :=
  config.clientId.getD ("cps-pub-" ++ toString nodeId.toNat)

/-- The id under which a task connects. -/
def Config.taskClientId (config : Config) : Task → String
  | .subscribe entry => config.subscribeClientId entry.nodeId
  | .publish entry => config.publishClientId entry.nodeId

/-- The tasks that come to connect to the broker.  `reaches` says of each task, by its place,
whether all before that went well: its keys, the chain, the node, the address of the broker. -/
def Config.connected (config : Config) (reaches : ℕ → Bool) : List Task :=
  match config.blockchain with
  | none => []
  | some _ => (config.tasks.zipIdx.filter fun p => reaches p.2).map Prod.fst

/-- The client ids that the broker sees, one for each session. -/
def Config.start (config : Config) (reaches : ℕ → Bool) : List String :=
  (config.connected reaches).map config.taskClientId

/-! ## When the ids are distinct -/

def Task.subscribeNode : Task → Option UInt64
  | .subscribe entry => some entry.nodeId
  | .publish _ => none

def Task.publishNode : Task → Option UInt64
  | .subscribe _ => none
  | .publish entry => some entry.nodeId

/-- No id of the configuration is used twice, and no node twice in one direction. -/
def Apart (clientId : Option String) (tasks : List Task) : Prop :=
  match clientId with
  | some _ => tasks.length ≤ 1
  | none => (tasks.filterMap Task.subscribeNode).Nodup ∧ (tasks.filterMap Task.publishNode).Nodup

theorem generated_inj {start : String} {n m : UInt64}
    (h : start ++ toString n.toNat = start ++ toString m.toNat) : n = m := by
  have hlist := congrArg String.toList h
  rw [String.toList_append, String.toList_append] at hlist
  have hdigits := List.append_cancel_left hlist
  rw [show toString n.toNat = n.toNat.repr from rfl, show toString m.toNat = m.toNat.repr from rfl,
    Nat.toList_repr, Nat.toList_repr] at hdigits
  have hnumber := congrArg (fun digits => Nat.ofDigitChars 10 digits 0) hdigits
  rw [Nat.ofDigitChars_toDigits (by decide) (by decide),
    Nat.ofDigitChars_toDigits (by decide) (by decide)] at hnumber
  exact UInt64.toNat_inj.mp hnumber

theorem generated_ne (n m : ℕ) : "cps-sub-" ++ toString n ≠ "cps-pub-" ++ toString m := by
  intro h
  have hlist := congrArg (fun s : String => s.toList[4]?) h
  simp [String.toList_append] at hlist

variable {config : Config}

/-- Two tasks have the same generated id if they have the same direction and node. -/
theorem taskClientId_eq_iff (hnone : config.clientId = none) {task task' : Task} :
    config.taskClientId task = config.taskClientId task' ↔
      task.subscribeNode = task'.subscribeNode ∧ task.publishNode = task'.publishNode := by
  have hsubscribe : ∀ n, config.subscribeClientId n = "cps-sub-" ++ toString n.toNat := by
    intro n
    rw [Config.subscribeClientId, hnone, Option.getD_none]
  have hpublish : ∀ n, config.publishClientId n = "cps-pub-" ++ toString n.toNat := by
    intro n
    rw [Config.publishClientId, hnone, Option.getD_none]
  cases task with
  | subscribe entry =>
    cases task' with
    | subscribe entry' =>
      simp only [Config.taskClientId, hsubscribe, Task.subscribeNode, Task.publishNode,
        Option.some.injEq, and_true]
      exact ⟨generated_inj, fun h => by rw [h]⟩
    | publish entry' =>
      simp only [Config.taskClientId, hsubscribe, hpublish]
      exact iff_of_false (generated_ne _ _) (by simp [Task.subscribeNode])
  | publish entry =>
    cases task' with
    | subscribe entry' =>
      simp only [Config.taskClientId, hsubscribe, hpublish]
      exact iff_of_false (generated_ne _ _).symm (by simp [Task.subscribeNode])
    | publish entry' =>
      simp only [Config.taskClientId, hpublish, Task.subscribeNode, Task.publishNode,
        Option.some.injEq, true_and]
      exact ⟨generated_inj, fun h => by rw [h]⟩

/-- Ids generated for tasks are distinct when no direction has a node twice. -/
theorem nodup_generated_iff (hnone : config.clientId = none) (tasks : List Task) :
    (tasks.map config.taskClientId).Nodup ↔
      (tasks.filterMap Task.subscribeNode).Nodup ∧ (tasks.filterMap Task.publishNode).Nodup := by
  induction tasks with
  | nil => simp
  | cons task tasks ih =>
    have hmem : config.taskClientId task ∈ tasks.map config.taskClientId ↔
        ∃ task' ∈ tasks, task'.subscribeNode = task.subscribeNode ∧
          task'.publishNode = task.publishNode := by
      rw [List.mem_map]
      refine exists_congr fun task' => and_congr_right fun _ => taskClientId_eq_iff hnone
    rw [List.map_cons, List.nodup_cons, ih, hmem]
    cases task with
    | subscribe entry =>
      have hsame : (∃ task' ∈ tasks, task'.subscribeNode = (Task.subscribe entry).subscribeNode ∧
          task'.publishNode = (Task.subscribe entry).publishNode) ↔
            entry.nodeId ∈ tasks.filterMap Task.subscribeNode := by
        rw [List.mem_filterMap]
        refine exists_congr fun task' => and_congr_right fun _ => ?_
        cases task' <;> simp [Task.subscribeNode, Task.publishNode]
      rw [hsame, List.filterMap_cons_some (show (Task.subscribe entry).subscribeNode =
        some entry.nodeId from rfl), List.filterMap_cons_none (show
          (Task.subscribe entry).publishNode = none from rfl), List.nodup_cons, and_assoc]
    | publish entry =>
      have hsame : (∃ task' ∈ tasks, task'.subscribeNode = (Task.publish entry).subscribeNode ∧
          task'.publishNode = (Task.publish entry).publishNode) ↔
            entry.nodeId ∈ tasks.filterMap Task.publishNode := by
        rw [List.mem_filterMap]
        refine exists_congr fun task' => and_congr_right fun _ => ?_
        cases task' <;> simp [Task.subscribeNode, Task.publishNode]
      rw [hsame, List.filterMap_cons_none (show (Task.publish entry).subscribeNode = none
        from rfl), List.filterMap_cons_some (show (Task.publish entry).publishNode =
          some entry.nodeId from rfl), List.nodup_cons]
      tauto

/-- **When sessions do not fight.**  The bridges that connect have distinct client ids if and
only if at most one of them connects under an id of the configuration, or, without such an id,
no two of them have the same direction and node. -/
theorem sessions_distinct_iff (config : Config) (reaches : ℕ → Bool) :
    (config.start reaches).Nodup ↔ Apart config.clientId (config.connected reaches) := by
  rw [Config.start]
  generalize config.connected reaches = tasks
  cases hclient : config.clientId with
  | none => exact nodup_generated_iff hclient tasks
  | some clientId =>
    show _ ↔ tasks.length ≤ 1
    have hconst : tasks.map config.taskClientId = List.replicate tasks.length clientId := by
      rw [List.eq_replicate_iff]
      refine ⟨List.length_map _, fun id hid => ?_⟩
      obtain ⟨task, -, rfl⟩ := List.mem_map.mp hid
      cases task with
      | subscribe entry =>
        show config.clientId.getD _ = clientId
        rw [hclient, Option.getD_some]
      | publish entry =>
        show config.clientId.getD _ = clientId
        rw [hclient, Option.getD_some]
    rw [hconst, List.nodup_replicate]

/-- One entry of each direction, and an id for the configuration. -/
def sharedClientId : Config :=
  ⟨some "cps-bridge", some ⟨some "ws://localhost:9944", some "//Alice"⟩,
    [⟨"sensors/temperature", 5, none, none, none⟩], [⟨"actuators/valve01", 10, false⟩]⟩

/-- Both connect under the same id.  So do two topics for one node, without an id. -/
theorem sessions_not_distinct :
    sharedClientId.start (fun _ => true) = ["cps-bridge", "cps-bridge"] ∧
      ¬ (sharedClientId.start fun _ => true).Nodup ∧
      ¬ (Config.start ⟨none, some ⟨none, some "//Alice"⟩,
        [⟨"sensors/temperature", 5, none, none, none⟩, ⟨"sensors/humidity", 5, none, none, none⟩],
          []⟩ fun _ => true).Nodup := by
  refine ⟨by decide +kernel, by decide +kernel, by decide +kernel⟩

end Bridge
end Robins
