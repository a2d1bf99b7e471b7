import Mathlib.Data.List.Basic
import Mathlib.Data.List.Induction
import Mathlib.Data.List.Nodup

/-!
# What a bounded window of recent keys should remember

Keys are inserted and forgotten.  An insertion is refused while the key is remembered, and a key is
remembered for a while only, and only as long as there is room: when more keys are held than there
is room for, the oldest are pushed out.

## Histories

`standing`, `PushedOut` and the rest say this of a history of calls and nothing else: an entry
stands from its insertion until its key is forgotten or inserted anew, it expires after a fixed
time, and it is pushed out by an insertion after which it is among the excess of the entries that
stand and have not expired.  Whether a key is remembered is thereby a question about the past, with
no state to answer it.

## Keeping the entries in a queue

`Tracks` is the invariant of a program that keeps the entries in a queue.  The queue holds the
youngest of the entries that stand; of those before it each is expired or has been pushed out, and
of those in it none has been pushed out.  So the program may drop an entry from the front of its
queue when it notices that it expired, or when there is no room, and need not do so earlier.  The
rules say what the queue may do at each kind of call (`Tracks.forget`, `Tracks.refuse`,
`Tracks.record`), and `Tracks.holds_iff` what it then knows: a key is held by an unexpired entry
exactly when it is to be remembered.

The times of the calls are asked to be ascending, since otherwise entries would not expire in the
order in which they stand.
-/

namespace SlidingWindow

variable {κ : Type*} [DecidableEq κ]

/-! ## Histories -/

/-- A call: an insertion, with its time and whether the key was new, or a request to forget
a key. -/
inductive Call (κ : Type*) where
  | insert (key : κ) (now : ℕ) (fresh : Bool)
  | forget (key : κ)
  deriving DecidableEq

/-- The time of an insertion. -/
def Call.time? : Call κ → Option ℕ
  | .insert _ now _ => some now
  | .forget _ => none

/-- The key whose standing a call changes: it is inserted as new, or forgotten. -/
def Call.subject? : Call κ → Option κ
  | .insert key _ true => some key
  | .insert _ _ false => none
  | .forget key => some key

/-- The times of a history, in its order. -/
def times (calls : List (Call κ)) : List ℕ := calls.filterMap Call.time?

/-- The entries after one more call. -/
def record (entries : List (κ × ℕ)) : Call κ → List (κ × ℕ)
  | .insert key now true => entries.filter (fun e => e.1 ≠ key) ++ [(key, now)]
  | .insert _ _ false => entries
  | .forget key => entries.filter fun e => e.1 ≠ key

/-- The keys that were inserted and not forgotten since, with the times of their last
successful insertions, oldest first. -/
def standing (calls : List (Call κ)) : List (κ × ℕ) := calls.foldl record []

/-- The entries whose time is not over. -/
def unexpired (ttl now : ℕ) (entries : List (κ × ℕ)) : List (κ × ℕ) :=
  entries.filter fun e => now < e.2 + ttl

/-- The oldest entries, as many as there are more than `capacity`. -/
def excess {α : Type*} (capacity : ℕ) (entries : List α) : List α :=
  entries.take (entries.length - capacity)

/-- The last successful insertion of a key that has not been forgotten since: what came
before it and what came after. -/
structure Stands (calls : List (Call κ)) (key : κ) (t : ℕ) (before since : List (Call κ)) :
    Prop where
  eq : calls = before ++ .insert key t true :: since
  untouched : ∀ c ∈ since, c.subject? ≠ some key

/-- Some later insertion has pushed the entry out: after it more than `capacity` unexpired
entries stood, and this one was among the oldest. -/
def PushedOut (capacity ttl : ℕ) (key : κ) (t : ℕ) (before since : List (Call κ)) : Prop :=
  ∃ earlier other now later, since = earlier ++ .insert other now true :: later ∧
    (key, t) ∈ excess capacity (unexpired ttl now
      (standing (before ++ .insert key t true :: earlier ++ [.insert other now true])))

theorem standing_snoc (calls : List (Call κ)) (c : Call κ) :
    standing (calls ++ [c]) = record (standing calls) c := by
  rw [standing, List.foldl_append]
  rfl

omit [DecidableEq κ] in
theorem times_snoc (calls : List (Call κ)) (c : Call κ) :
    times (calls ++ [c]) = times calls ++ c.time?.toList := by
  rw [times, List.filterMap_append]
  cases h : c.time? <;> simp [times, h]

/-- A split of a history one call longer. -/
theorem snoc_eq_iff {α : Type*} {l before since : List α} {c x : α} :
    l ++ [c] = before ++ x :: since ↔
      (∃ since', since = since' ++ [c] ∧ l = before ++ x :: since') ∨
        (since = [] ∧ l = before ∧ c = x) := by
  constructor
  · intro h
    rcases List.eq_nil_or_concat since with rfl | ⟨since', last, rfl⟩
    · obtain ⟨hl, hc⟩ := List.append_inj' h rfl
      exact .inr ⟨rfl, hl, List.singleton_inj.mp hc⟩
    · have hsplit : l ++ [c] = (before ++ x :: since') ++ [last] := by
        rw [h, List.append_assoc, List.cons_append, List.concat_eq_append]
      obtain ⟨hl, hc⟩ := List.append_inj' hsplit rfl
      obtain rfl := List.singleton_inj.mp hc
      exact .inl ⟨since', List.concat_eq_append, hl⟩
  · rintro (⟨since', rfl, rfl⟩ | ⟨rfl, rfl, rfl⟩)
    · rw [List.append_assoc, List.cons_append]
    · rfl

omit [DecidableEq κ] in
theorem stands_snoc_iff {calls before since : List (Call κ)} {c : Call κ} {key : κ} {t : ℕ} :
    Stands (calls ++ [c]) key t before since ↔
      (∃ since', since = since' ++ [c] ∧ c.subject? ≠ some key ∧
        Stands calls key t before since') ∨
      (since = [] ∧ calls = before ∧ c = .insert key t true) := by
  constructor
  · rintro ⟨heq, huntouched⟩
    rcases snoc_eq_iff.mp heq with ⟨since', rfl, hcalls⟩ | hlast
    · refine .inl ⟨since', rfl, huntouched c (by simp), hcalls, fun d hd => ?_⟩
      exact huntouched d (List.mem_append_left _ hd)
    · exact .inr hlast
  · rintro (⟨since', rfl, hc, heq, huntouched⟩ | hlast)
    · refine ⟨snoc_eq_iff.mpr (.inl ⟨since', rfl, heq⟩), fun d hd => ?_⟩
      rcases List.mem_append.mp hd with hd | hd
      · exact huntouched d hd
      · obtain rfl := List.mem_singleton.mp hd
        exact hc
    · refine ⟨snoc_eq_iff.mpr (.inr hlast), ?_⟩
      rw [hlast.1]
      simp

/-- **What stands is what was inserted last and not forgotten.**  An entry stands exactly if the
history has its insertion and nothing about its key after that. -/
theorem mem_standing_iff {calls : List (Call κ)} {key : κ} {t : ℕ} :
    (key, t) ∈ standing calls ↔ ∃ before since, Stands calls key t before since := by
  induction calls using List.reverseRecOn with
  | nil =>
    refine iff_of_false (by simp [standing]) ?_
    rintro ⟨before, since, heq, -⟩
    exact absurd heq (by simp)
  | append_singleton calls c ih =>
    have hsnoc : (∃ before since, Stands (calls ++ [c]) key t before since) ↔
        (c.subject? ≠ some key ∧ (key, t) ∈ standing calls) ∨ c = .insert key t true := by
      rw [ih]
      constructor
      · rintro ⟨before, since, h⟩
        rcases stands_snoc_iff.mp h with ⟨since', -, hc, h⟩ | ⟨-, -, hc⟩
        · exact .inl ⟨hc, before, since', h⟩
        · exact .inr hc
      · rintro (⟨hc, before, since, h⟩ | hc)
        · exact ⟨before, since ++ [c], stands_snoc_iff.mpr (.inl ⟨since, rfl, hc, h⟩)⟩
        · exact ⟨calls, [], stands_snoc_iff.mpr (.inr ⟨rfl, rfl, hc⟩)⟩
    rw [hsnoc, standing_snoc]
    cases c with
    | insert other now fresh =>
      cases fresh with
      | true =>
        simp only [record, Call.subject?, List.mem_append, List.mem_filter, List.mem_singleton,
          Prod.mk.injEq, decide_eq_true_eq, Option.some.injEq, Call.insert.injEq, and_true, ne_eq]
        constructor
        · rintro (⟨hmem, hne⟩ | ⟨hkey, ht⟩)
          · exact .inl ⟨fun h => hne h.symm, hmem⟩
          · exact .inr ⟨hkey.symm, ht.symm⟩
        · rintro (⟨hne, hmem⟩ | ⟨hkey, ht⟩)
          · exact .inl ⟨hmem, fun h => hne h.symm⟩
          · exact .inr ⟨hkey.symm, ht.symm⟩
      | false => simp [record, Call.subject?]
    | forget other =>
      simp only [record, Call.subject?, List.mem_filter, decide_eq_true_eq, ne_eq,
        Option.some.injEq, reduceCtorEq, or_false]
      exact ⟨fun h => ⟨fun heq => h.2 heq.symm, h.1⟩, fun h => ⟨h.2, fun heq => h.1 heq.symm⟩⟩

theorem nodup_standing (calls : List (Call κ)) : ((standing calls).map Prod.fst).Nodup := by
  induction calls using List.reverseRecOn with
  | nil => exact List.nodup_nil
  | append_singleton calls c ih =>
    have hfilter : ∀ key, (((standing calls).filter fun e => e.1 ≠ key).map Prod.fst).Nodup :=
      fun key => ih.sublist (List.filter_sublist.map _)
    rw [standing_snoc]
    cases c with
    | insert key now fresh =>
      cases fresh with
      | true =>
        rw [record, List.map_append]
        refine List.nodup_append.mpr ⟨hfilter key, List.nodup_singleton _, ?_⟩
        intro a ha b hb
        obtain ⟨e, he, rfl⟩ := List.mem_map.mp ha
        obtain rfl := List.mem_singleton.mp hb
        exact of_decide_eq_true (List.mem_filter.mp he).2
      | false => exact ih
    | forget key => exact hfilter key

/-- The time of an entry is the time of a call. -/
theorem time_mem_of_mem_standing {calls : List (Call κ)} {e : κ × ℕ} (h : e ∈ standing calls) :
    e.2 ∈ times calls := by
  obtain ⟨before, since, heq, -⟩ := mem_standing_iff.mp h
  rw [times, heq]
  exact List.mem_filterMap.mpr ⟨.insert e.1 e.2 true, by simp, rfl⟩

theorem sorted_standing {calls : List (Call κ)} (h : (times calls).Pairwise (· ≤ ·)) :
    (standing calls).Pairwise fun e e' => e.2 ≤ e'.2 := by
  induction calls using List.reverseRecOn with
  | nil => exact List.Pairwise.nil
  | append_singleton calls c ih =>
    rw [times_snoc, List.pairwise_append] at h
    obtain ⟨hcalls, -, hlast⟩ := h
    rw [standing_snoc]
    cases c with
    | insert key now fresh =>
      cases fresh with
      | true =>
        refine List.pairwise_append.mpr ⟨(ih hcalls).filter _, List.pairwise_singleton _ _, ?_⟩
        intro e he e' he'
        obtain rfl := List.mem_singleton.mp he'
        have htime := time_mem_of_mem_standing (List.mem_of_mem_filter he)
        exact hlast _ htime now (by simp [Call.time?])
      | false => exact ih hcalls
    | forget key => exact (ih hcalls).filter _

theorem pushedOut_snoc_iff {capacity ttl : ℕ} {key : κ} {t : ℕ} {before since : List (Call κ)}
    {c : Call κ} :
    PushedOut capacity ttl key t before (since ++ [c]) ↔
      PushedOut capacity ttl key t before since ∨ ∃ other now, c = .insert other now true ∧
        (key, t) ∈ excess capacity (unexpired ttl now
          (standing (before ++ .insert key t true :: since ++ [c]))) := by
  constructor
  · rintro ⟨earlier, other, now, later, heq, hmem⟩
    rcases snoc_eq_iff.mp heq with ⟨later', rfl, rfl⟩ | ⟨rfl, rfl, rfl⟩
    · exact .inl ⟨earlier, other, now, later', rfl, hmem⟩
    · exact .inr ⟨other, now, rfl, hmem⟩
  · rintro (⟨earlier, other, now, later, rfl, hmem⟩ | ⟨other, now, rfl, hmem⟩)
    · exact ⟨earlier, other, now, later ++ [c], by simp, hmem⟩
    · exact ⟨since, other, now, [], rfl, hmem⟩

/-! ## The excess

What exceeds the room is at the front, where the oldest are: nothing of what fits at the end, and
all that stands before a window that is full. -/

section

variable {α : Type*} {capacity : ℕ} {l k : List α}

/-- What fits at the end is not excess. -/
theorem excess_append_subset (h : k.length ≤ capacity) : excess capacity (l ++ k) ⊆ l := by
  intro a ha
  rw [excess, List.length_append, List.take_append, List.mem_append] at ha
  rcases ha with ha | ha
  · exact List.mem_of_mem_take ha
  · rw [show l.length + k.length - capacity - l.length = 0 by omega, List.take_zero] at ha
    exact absurd ha (by simp)

/-- What is in front of a full window is excess. -/
theorem excess_append_of_length_eq (h : k.length = capacity) : excess capacity (l ++ k) = l := by
  rw [excess, List.length_append, h, Nat.add_sub_cancel, List.take_left]

end

/-! ## Keeping the entries in a queue -/

/-- The queue holds the youngest of the entries that stand; of those before it each is
expired or has been pushed out, and of those in it none has been pushed out. -/
structure Tracks (capacity ttl now : ℕ) (calls : List (Call κ)) (gone kept : List (κ × ℕ)) :
    Prop where
  standing_eq : standing calls = gone ++ kept
  length_le : kept.length ≤ capacity
  lost : ∀ e ∈ gone, ∀ before since, Stands calls e.1 e.2 before since →
    e.2 + ttl ≤ now ∨ PushedOut capacity ttl e.1 e.2 before since
  held : ∀ e ∈ kept, ∀ before since, Stands calls e.1 e.2 before since →
    ¬ PushedOut capacity ttl e.1 e.2 before since

variable {capacity ttl now now' : ℕ} {calls : List (Call κ)} {gone kept : List (κ × ℕ)}

theorem tracks_nil (capacity ttl now : ℕ) : Tracks capacity ttl now ([] : List (Call κ)) [] [] where
  standing_eq := rfl
  length_le := Nat.zero_le _
  lost := by simp
  held := by simp

omit [DecidableEq κ] in
/-- A call that does not concern the entry leaves its decomposition, but for itself. -/
theorem Stands.of_snoc {c : Call κ} {key : κ} {t : ℕ} {before since : List (Call κ)}
    (h : Stands (calls ++ [c]) key t before since) (hc : c ≠ .insert key t true) :
    ∃ since', since = since' ++ [c] ∧ Stands calls key t before since' := by
  rcases stands_snoc_iff.mp h with ⟨since', heq, -, hstands⟩ | ⟨-, -, hlast⟩
  · exact ⟨since', heq, hstands⟩
  · exact absurd hlast hc

/-- A call that is not a successful insertion pushes nothing out. -/
theorem PushedOut.of_snoc {c : Call κ} {key : κ} {t : ℕ} {before since : List (Call κ)}
    (h : PushedOut capacity ttl key t before (since ++ [c]))
    (hc : ∀ other now, c ≠ .insert other now true) :
    PushedOut capacity ttl key t before since := by
  rcases pushedOut_snoc_iff.mp h with h | ⟨other, now, heq, -⟩
  · exact h
  · exact absurd heq (hc other now)

/-- **Forgetting a key** takes it out of the queue. -/
theorem Tracks.forget (h : Tracks capacity ttl now calls gone kept) (key : κ) :
    Tracks capacity ttl now (calls ++ [.forget key]) (gone.filter fun e => e.1 ≠ key)
      (kept.filter fun e => e.1 ≠ key) where
  standing_eq := by rw [standing_snoc, h.standing_eq, record, List.filter_append]
  length_le := Nat.le_trans (List.length_filter_le _ _) h.length_le
  lost := by
    intro e he before since hstands
    obtain ⟨since', rfl, hearlier⟩ := hstands.of_snoc (by simp)
    exact (h.lost e (List.mem_of_mem_filter he) before since' hearlier).imp_right
      fun hout => pushedOut_snoc_iff.mpr (.inl hout)
  held := by
    intro e he before since hstands hout
    obtain ⟨since', rfl, hearlier⟩ := hstands.of_snoc (by simp)
    exact h.held e (List.mem_of_mem_filter he) before since' hearlier (hout.of_snoc (by simp))

/-- **Refusing an insertion** drops expired entries from the front. -/
theorem Tracks.refuse {expired live : List (κ × ℕ)}
    (h : Tracks capacity ttl now calls gone (expired ++ live)) (hnow : now ≤ now')
    (hexpired : ∀ e ∈ expired, e.2 + ttl ≤ now') (key : κ) :
    Tracks capacity ttl now' (calls ++ [.insert key now' false]) (gone ++ expired) live where
  standing_eq := by rw [standing_snoc, h.standing_eq, record, List.append_assoc]
  length_le := by
    have := h.length_le
    rw [List.length_append] at this
    omega
  lost := by
    intro e he before since hstands
    obtain ⟨since', rfl, hearlier⟩ := hstands.of_snoc (by simp)
    rcases List.mem_append.mp he with he | he
    · rcases h.lost e he before since' hearlier with hover | hout
      · exact .inl (Nat.le_trans hover hnow)
      · exact .inr (pushedOut_snoc_iff.mpr (.inl hout))
    · exact .inl (hexpired e he)
  held := by
    intro e he before since hstands hout
    obtain ⟨since', rfl, hearlier⟩ := hstands.of_snoc (by simp)
    exact h.held e (List.mem_append_right _ he) before since' hearlier (hout.of_snoc (by simp))

/-- The insertion of a key that no live entry holds comes last among those that stand. -/
theorem Tracks.standing_record {expired live : List (κ × ℕ)}
    (h : Tracks capacity ttl now calls gone (expired ++ live)) {key : κ}
    (hnew : key ∉ live.map Prod.fst) :
    standing (calls ++ [.insert key now' true]) =
      (gone ++ expired).filter (fun e => e.1 ≠ key) ++ (live ++ [(key, now')]) := by
  have hkeep : live.filter (fun e => e.1 ≠ key) = live := by
    refine List.filter_eq_self.mpr fun e he => decide_eq_true ?_
    rintro rfl
    exact hnew (List.mem_map_of_mem he)
  rw [standing_snoc, h.standing_eq, SlidingWindow.record, ← List.append_assoc,
    List.filter_append, hkeep, List.append_assoc]

/-- Where there is a live entry, the new one is not expired at once. -/
theorem Tracks.unexpired_record {expired live : List (κ × ℕ)}
    (h : Tracks capacity ttl now calls gone (expired ++ live)) (hnow : now ≤ now')
    (htimes : ∀ t ∈ times calls, t ≤ now) (hlive : ∀ e ∈ live, now' < e.2 + ttl) {key : κ}
    (hnew : key ∉ live.map Prod.fst) {e : κ × ℕ} (he : e ∈ live) :
    unexpired ttl now' (standing (calls ++ [.insert key now' true])) =
      unexpired ttl now' ((gone ++ expired).filter fun e => e.1 ≠ key) ++
        (live ++ [(key, now')]) := by
  have hstands : e ∈ standing calls := by
    rw [h.standing_eq]
    exact List.mem_append_right _ (List.mem_append_right _ he)
  have hle := htimes _ (time_mem_of_mem_standing hstands)
  have hlt := hlive e he
  rw [h.standing_record hnew, unexpired, List.filter_append]
  congr 1
  refine List.filter_eq_self.mpr fun d hd => decide_eq_true ?_
  rcases List.mem_append.mp hd with hd | hd
  · exact hlive d hd
  · obtain rfl := List.mem_singleton.mp hd
    dsimp only
    omega

/-- **A successful insertion** drops expired entries from the front, puts the new one at the
end, and drops the excess from the front. -/
theorem Tracks.record {expired live : List (κ × ℕ)} (hcapacity : 0 < capacity)
    (h : Tracks capacity ttl now calls gone (expired ++ live)) (hnow : now ≤ now')
    (htimes : ∀ t ∈ times calls, t ≤ now) (hexpired : ∀ e ∈ expired, e.2 + ttl ≤ now')
    (hlive : ∀ e ∈ live, now' < e.2 + ttl) {key : κ} (hnew : key ∉ live.map Prod.fst) :
    Tracks capacity ttl now' (calls ++ [.insert key now' true])
      ((gone ++ expired).filter (fun e => e.1 ≠ key) ++
        excess capacity (live ++ [(key, now')]))
      ((live ++ [(key, now')]).drop (live.length + 1 - capacity)) := by
  have hsplit : excess capacity (live ++ [(key, now')]) ++
      (live ++ [(key, now')]).drop (live.length + 1 - capacity) = live ++ [(key, now')] := by
    rw [excess, List.length_append, List.length_singleton, List.take_append_drop]
  have hstanding : standing (calls ++ [.insert key now' true]) = _ := h.standing_record hnew
  have hmem_live : ∀ e ∈ excess capacity (live ++ [(key, now')]), e ∈ live := by
    intro e he
    exact excess_append_subset (by rw [List.length_singleton]; omega) he
  have hcall : ∀ e ∈ live, Call.insert key now' true ≠ .insert e.1 e.2 true := by
    intro e he heq
    obtain ⟨rfl, -⟩ := Call.insert.inj heq
    exact hnew (List.mem_map_of_mem he)
  have hdrop : ((live ++ [(key, now')]).drop (live.length + 1 - capacity)).length ≤ capacity := by
    rw [List.length_drop, List.length_append, List.length_singleton]
    omega
  refine ⟨by rw [hstanding, List.append_assoc, hsplit], hdrop, ?_, ?_⟩
  · intro e he before since hstands
    rcases List.mem_append.mp he with he | he
    · obtain ⟨hold, hne⟩ := List.mem_filter.mp he
      have hne : e.1 ≠ key := of_decide_eq_true hne
      obtain ⟨since', rfl, hearlier⟩ := hstands.of_snoc (by
        intro heq
        exact hne (Call.insert.inj heq).1.symm)
      rcases List.mem_append.mp hold with hgone | hexp
      · rcases h.lost e hgone before since' hearlier with hover | hout
        · exact .inl (Nat.le_trans hover hnow)
        · exact .inr (pushedOut_snoc_iff.mpr (.inl hout))
      · exact .inl (hexpired e hexp)
    · -- this very insertion pushes the entry out
      have hin := hmem_live e he
      obtain ⟨since', rfl, hearlier⟩ := hstands.of_snoc (hcall e hin)
      refine .inr (pushedOut_snoc_iff.mpr (.inr ⟨key, now', rfl, ?_⟩))
      have hfull : ((live ++ [(key, now')]).drop (live.length + 1 - capacity)).length =
          capacity := by
        have hpos := List.length_pos_of_mem he
        rw [excess, List.length_take, List.length_append, List.length_singleton] at hpos
        rw [List.length_drop, List.length_append, List.length_singleton]
        omega
      rw [← hearlier.eq, h.unexpired_record hnow htimes hlive hnew hin, ← hsplit,
        ← List.append_assoc, excess_append_of_length_eq hfull]
      exact List.mem_append_right _ he
  · intro e he before since hstands hout
    rcases List.mem_append.mp (List.mem_of_mem_drop he) with hin | hlast
    · obtain ⟨since', rfl, hearlier⟩ := hstands.of_snoc (hcall e hin)
      rcases pushedOut_snoc_iff.mp hout with hout | ⟨other, t', heq, hexcess⟩
      · exact h.held e (List.mem_append_right _ hin) before since' hearlier hout
      · obtain ⟨rfl, rfl, -⟩ := Call.insert.inj heq
        rw [← hearlier.eq, h.unexpired_record hnow htimes hlive hnew hin, ← hsplit,
          ← List.append_assoc] at hexcess
        -- what is in the queue is not in front of it
        have hfront := excess_append_subset hdrop hexcess
        have hnodup := (nodup_standing (calls ++ [.insert key now' true])).of_map
        rw [hstanding, ← hsplit, ← List.append_assoc] at hnodup
        have hdisjoint := (List.nodup_append.mp hnodup).2.2
        refine hdisjoint e ?_ e he rfl
        rcases List.mem_append.mp hfront with hfront | hfront
        · exact List.mem_append_left _ (List.mem_of_mem_filter hfront)
        · exact List.mem_append_right _ hfront
    · -- the entry just made has nothing after it
      obtain rfl := List.mem_singleton.mp hlast
      rcases stands_snoc_iff.mp hstands with ⟨since', -, hc, -⟩ | ⟨rfl, -, -⟩
      · exact absurd rfl hc
      · obtain ⟨earlier, other, t', later, heq, -⟩ := hout
        exact absurd heq (by simp)

/-- **What the queue knows**: a key is held by an unexpired entry exactly when its last
successful insertion is not too long ago, and it has neither been forgotten nor pushed out
since. -/
theorem Tracks.holds_iff (h : Tracks capacity ttl now calls gone kept) (hnow : now ≤ now')
    (key : κ) :
    (∃ t, (key, t) ∈ kept ∧ now' < t + ttl) ↔
      ∃ t before since, Stands calls key t before since ∧ now' < t + ttl ∧
        ¬ PushedOut capacity ttl key t before since := by
  constructor
  · rintro ⟨t, hmem, hlive⟩
    have hstands : (key, t) ∈ standing calls := by
      rw [h.standing_eq]
      exact List.mem_append_right _ hmem
    obtain ⟨before, since, hstands⟩ := mem_standing_iff.mp hstands
    exact ⟨t, before, since, hstands, hlive, h.held _ hmem before since hstands⟩
  · rintro ⟨t, before, since, hstands, hlive, hout⟩
    have hmem : (key, t) ∈ standing calls := mem_standing_iff.mpr ⟨before, since, hstands⟩
    rw [h.standing_eq] at hmem
    rcases List.mem_append.mp hmem with hgone | hkept
    · rcases h.lost _ hgone before since hstands with hover | hpushed
      · exact absurd hlive (by dsimp only at hover; omega)
      · exact absurd hpushed hout
    · exact ⟨t, hkept, hlive⟩

end SlidingWindow
