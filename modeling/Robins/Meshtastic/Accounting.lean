import Robins.Meshtastic.Reassembly
import Mathlib.Data.List.Count

/-!
# The places of a reassembler

Every assembly takes one place of the global limit and one of its sender's.  The sender's places
are counted twice: by the keys of the assemblies, and by a counter of its own that is updated
wherever an assembly begins or ends.  `Accounted` says that the two agree and that no limit is
exceeded; it looks at nothing else, and each way to change the reassembler keeps it.

There are only three ways.  An assembly is stored under a key that has none, which takes a place
that must be free (`Accounted.begin`); it is stored under a key that has one, which takes no place
(`Accounted.replace`); or it is discarded, which gives its place back (`Accounted.discard`).  The
sweep is discards in a row, in an order that does not matter (`lookup_foldl_discard`), and the
loss of the session is a new start.

A counter of zero is never kept: the code takes the entry out of the map when it gets there, and
`tally` is what the map then holds for a number.  So a sender without assemblies leaves no trace.
-/

namespace Robins
namespace Meshtastic

/-- How many assemblies a sender has. -/
def senderCount (r : Reassembler) (sender : UInt32) : ℕ :=
  r.assemblies.keys.countP fun key => key.sender = sender

/-- A counter entry: absent for zero. -/
def tally (n : ℕ) : Option ℕ := if n = 0 then none else some n

theorem tally_getD (n : ℕ) : (tally n).getD 0 = n := by
  unfold tally
  split
  · next h => rw [h]; rfl
  · rfl

theorem tally_of_pos {n : ℕ} (h : 0 < n) : tally n = some n := if_neg (by omega)

/-- The limits hold and the counters are right. -/
structure Accounted (config : ReassemblerConfig) (r : Reassembler) : Prop where
  config_eq : r.config = config
  length_le : r.assemblies.keys.length ≤ config.maxPending
  counter : ∀ sender, r.pendingPerSender.lookup sender = tally (senderCount r sender)
  senderCount_le : ∀ sender, senderCount r sender ≤ config.maxPendingPerSender

variable {config : ReassemblerConfig} {r : Reassembler}

theorem accounted_new (config : ReassemblerConfig) : Accounted config (.new config) where
  config_eq := rfl
  length_le := Nat.zero_le _
  counter _ := rfl
  senderCount_le _ := Nat.zero_le _

theorem Accounted.clear (h : Accounted config r) : Accounted config (clear r) where
  config_eq := h.config_eq
  length_le := Nat.zero_le _
  counter _ := rfl
  senderCount_le _ := Nat.zero_le _

theorem mem_of_lookup {key : Key} {a : Assembly} (h : r.assemblies.lookup key = some a) :
    key ∈ r.assemblies := by
  rw [← AList.lookup_isSome, h]
  rfl

theorem senderCount_pos {key : Key} (hmem : key ∈ r.assemblies) : 0 < senderCount r key.sender :=
  List.countP_pos_iff.mpr ⟨key, AList.mem_keys.mp hmem, decide_eq_true rfl⟩

/-- Removing a key takes one place of its sender. -/
theorem countP_erase_key {key : Key} (hmem : key ∈ r.assemblies) (sender : UInt32) :
    (r.assemblies.erase key).keys.countP (fun k => k.sender = sender) =
      senderCount r sender - if key.sender = sender then 1 else 0 := by
  rw [AList.keys_erase, List.countP_erase, senderCount]
  simp [AList.mem_keys.mp hmem]

theorem release_lookup {counter : AList fun _ : UInt32 => ℕ} {count : UInt32 → ℕ}
    (h : ∀ sender, counter.lookup sender = tally (count sender)) {sender : UInt32}
    (hpos : 0 < count sender) (sender' : UInt32) :
    (release counter sender).lookup sender' =
      tally (count sender' - if sender = sender' then 1 else 0) := by
  have hself : counter.lookup sender = some (count sender) := by
    rw [h, tally_of_pos hpos]
  unfold release
  rw [hself]
  dsimp only
  by_cases hs : sender = sender'
  · subst hs
    rw [if_pos rfl]
    split
    · next hzero => rw [AList.lookup_erase, hzero]; rfl
    · next hne => rw [AList.lookup_insert, tally_of_pos (by omega)]
  · rw [if_neg hs, Nat.sub_zero]
    split
    · rw [AList.lookup_erase_ne (Ne.symm hs), h]
    · rw [AList.lookup_insert_ne (Ne.symm hs), h]

/-- What is left of the assemblies after a discard. -/
theorem lookup_discard (r : Reassembler) (key k : Key) :
    (discard r key).assemblies.lookup k = if k = key then none else r.assemblies.lookup k := by
  unfold discard
  cases hkey : r.assemblies.lookup key with
  | none =>
    dsimp only
    split
    · next hk => rw [hk, hkey]
    · rfl
  | some assembly =>
    dsimp only
    split
    · next hk => rw [hk, AList.lookup_erase]
    · next hk => rw [AList.lookup_erase_ne hk]

theorem Accounted.discard (h : Accounted config r) (key : Key) :
    Accounted config (discard r key) := by
  unfold Meshtastic.discard
  cases hkey : r.assemblies.lookup key with
  | none => exact h
  | some assembly =>
    have hmem := mem_of_lookup hkey
    have hcount := countP_erase_key hmem
    refine ⟨h.config_eq, ?_, fun sender => ?_, fun sender => ?_⟩
    · have hlen := (List.erase_sublist (a := key) (l := r.assemblies.keys)).length_le
      dsimp only
      rw [AList.keys_erase]
      exact hlen.trans h.length_le
    · rw [senderCount, hcount]
      exact release_lookup h.counter (senderCount_pos hmem) sender
    · rw [senderCount, hcount]
      exact (Nat.sub_le _ _).trans (h.senderCount_le sender)

theorem Accounted.replace (h : Accounted config r) {key : Key} (hmem : key ∈ r.assemblies)
    (assembly : Assembly) :
    Accounted config { r with assemblies := r.assemblies.insert key assembly } := by
  have hkeys := AList.mem_keys.mp hmem
  have hperm : (r.assemblies.insert key assembly).keys.Perm r.assemblies.keys := by
    rw [AList.keys_insert]
    exact (List.perm_cons_erase hkeys).symm
  have hcount : ∀ sender, senderCount { r with assemblies := r.assemblies.insert key assembly }
      sender = senderCount r sender := fun sender => hperm.countP_eq _
  refine ⟨h.config_eq, hperm.length_eq.trans_le h.length_le, fun sender => ?_, fun sender => ?_⟩
  · rw [hcount]
    exact h.counter sender
  · rw [hcount]
    exact h.senderCount_le sender

/-- Beginning an assembly takes one free place. -/
theorem Accounted.begin (h : Accounted config r) {key : Key} (hmem : key ∉ r.assemblies)
    (hglobal : r.assemblies.keys.length < config.maxPending)
    (hsender : (r.pendingPerSender.lookup key.sender).getD 0 < config.maxPendingPerSender)
    (assembly : Assembly) :
    Accounted config { r with
      assemblies := r.assemblies.insert key assembly
      pendingPerSender := r.pendingPerSender.insert key.sender
        ((r.pendingPerSender.lookup key.sender).getD 0 + 1) } := by
  have hkeys : (r.assemblies.insert key assembly).keys = key :: r.assemblies.keys := by
    rw [AList.keys_insert, List.erase_of_not_mem fun hk => hmem (AList.mem_keys.mpr hk)]
  have hcount : ∀ sender,
      (r.assemblies.insert key assembly).keys.countP (fun k => k.sender = sender) =
        senderCount r sender + if key.sender = sender then 1 else 0 := by
    intro sender
    rw [hkeys, List.countP_cons, senderCount]
    simp
  have hpending : (r.pendingPerSender.lookup key.sender).getD 0 = senderCount r key.sender := by
    rw [h.counter, tally_getD]
  rw [hpending] at hsender ⊢
  generalize hplace : senderCount r key.sender = place at hsender ⊢
  refine ⟨h.config_eq, ?_, fun sender => ?_, fun sender => ?_⟩
  · dsimp only
    rw [hkeys, List.length_cons]
    exact hglobal
  · rw [senderCount, hcount]
    dsimp only
    by_cases hs : key.sender = sender
    · subst hs
      rw [if_pos rfl, AList.lookup_insert, tally_of_pos (Nat.succ_pos _), hplace]
    · rw [if_neg hs, AList.lookup_insert_ne (Ne.symm hs), h.counter]
      rfl
  · rw [senderCount, hcount]
    by_cases hs : key.sender = sender
    · subst hs
      rw [if_pos rfl, hplace]
      exact hsender
    · rw [if_neg hs]
      exact h.senderCount_le sender

/-- Sweeping discards exactly the expired assemblies. -/
theorem lookup_foldl_discard (keys : List Key) (r : Reassembler) (k : Key) :
    (keys.foldl discard r).assemblies.lookup k =
      if k ∈ keys then none else r.assemblies.lookup k := by
  induction keys generalizing r with
  | nil => simp
  | cons key keys ih =>
    rw [List.foldl_cons, ih, lookup_discard]
    by_cases hk : k = key
    · subst hk
      simp
    · simp [hk]

theorem Accounted.foldl_discard (h : Accounted config r) (keys : List Key) :
    Accounted config (keys.foldl Meshtastic.discard r) := by
  induction keys generalizing r with
  | nil => exact h
  | cons key keys ih => exact ih (h.discard key)

end Meshtastic
end Robins
