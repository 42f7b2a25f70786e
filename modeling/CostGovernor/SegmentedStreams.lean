import Mathlib.Data.List.Basic
import Mathlib.Tactic

/-!
# Streams that arrive and leave in pieces

A stream arrives in nonempty chunks. One read returns at most one chunk and returns
nothing only at the end, so a reader that wants `n` elements has to read in a loop.
What that loop gets does not depend on the chunks: it is what `takeExactly` gets
from the stream itself. A writer may see only a part of its data taken by each
write; a loop that succeeds has written all of it.
-/

namespace SegmentedStreams

variable {α : Type}

/-- What is still to arrive, in the pieces it arrives in. -/
structure Segments (α : Type) where
  chunks : List (List α)
  nonempty : ∀ c ∈ chunks, c ≠ []

def takeExactly (n : ℕ) (l : List α) : Option (List α) × List α :=
  (if n ≤ l.length then some (l.take n) else none, l.drop n)

namespace Segments

def stream (s : Segments α) : List α := s.chunks.flatten

def whole : List α → Segments α
  | [] => ⟨[], by simp⟩
  | a :: l => ⟨[a :: l], by simp⟩

@[simp] theorem stream_whole (l : List α) : (whole l).stream = l := by
  cases l with
  | nil => rfl
  | cons a l => exact List.flatten_singleton

def read (k : ℕ) : Segments α → List α × Segments α
  | ⟨[], h⟩ => ([], ⟨[], h⟩)
  | ⟨c :: cs, h⟩ =>
    if hk : c.length ≤ k then (c, ⟨cs, fun d hd => h d (List.mem_cons_of_mem c hd)⟩)
    else
      (c.take k, ⟨c.drop k :: cs, by
        intro d hd
        rcases List.mem_cons.1 hd with rfl | hd
        · exact fun hnil => hk (List.drop_eq_nil_iff.1 hnil)
        · exact h d (List.mem_cons_of_mem c hd)⟩)

/-- `got` has arrived and `n` more elements are wanted. Every read makes progress, so
`n` reads are enough. -/
def readLoop : ℕ → ℕ → List α → Segments α → Option (List α) × Segments α
  | 0, n, got, s => (if n = 0 then some got else none, s)
  | reads + 1, n, got, s =>
    if n = 0 then (some got, s)
    else if (s.read n).1 = [] then (none, (s.read n).2)
    else readLoop reads (n - (s.read n).1.length) (got ++ (s.read n).1) (s.read n).2

def readAll (n : ℕ) (s : Segments α) : Option (List α) × Segments α := readLoop n n [] s

theorem read_append (k : ℕ) (s : Segments α) : (s.read k).1 ++ (s.read k).2.stream = s.stream := by
  obtain ⟨chunks, h⟩ := s
  cases chunks with
  | nil => rfl
  | cons c cs =>
      dsimp only [read]
      split_ifs with hk
      · rfl
      · rw [stream, stream, List.flatten_cons, ← List.append_assoc, List.take_append_drop,
          List.flatten_cons]

theorem length_read_le (k : ℕ) (s : Segments α) : (s.read k).1.length ≤ k := by
  obtain ⟨chunks, h⟩ := s
  cases chunks with
  | nil => exact Nat.zero_le k
  | cons c cs =>
      dsimp only [read]
      split_ifs with hk
      · exact hk
      · exact List.length_take_le k c

/-- A read returns nothing only at the end of the stream. -/
theorem stream_of_read_eq_nil {k : ℕ} (hk : k ≠ 0) {s : Segments α} (h : (s.read k).1 = []) :
    s.stream = [] := by
  obtain ⟨chunks, hchunks⟩ := s
  cases chunks with
  | nil => rfl
  | cons c cs =>
      have hc := hchunks c (by simp)
      dsimp only [read] at h
      split_ifs at h with hlen
      · exact absurd h hc
      · rcases List.take_eq_nil_iff.1 h with hzero | hnil
        · exact absurd hzero hk
        · exact absurd hnil hc

theorem readLoop_eq_takeExactly {reads n : ℕ} (hreads : n ≤ reads) (got : List α) (s : Segments α) :
    (s.readLoop reads n got).1 = (takeExactly n s.stream).1.map (got ++ ·) ∧
      (s.readLoop reads n got).2.stream = (takeExactly n s.stream).2 := by
  induction reads generalizing n got s with
  | zero =>
      obtain rfl := Nat.le_zero.1 hreads
      exact ⟨congrArg some (List.append_nil got).symm, rfl⟩
  | succ reads ih =>
      rw [readLoop]
      by_cases hn : n = 0
      · subst hn
        exact ⟨congrArg some (List.append_nil got).symm, rfl⟩
      rw [if_neg hn]
      have happend := s.read_append n
      by_cases hnil : (s.read n).1 = []
      · have hend := stream_of_read_eq_nil hn hnil
        rw [hnil, hend] at happend
        rw [if_pos hnil, hend, takeExactly, if_neg (by simpa using hn)]
        exact ⟨rfl, by rw [List.drop_nil]; exact happend⟩
      · have hpos := List.length_pos_iff.2 hnil
        have hle := s.length_read_le n
        rw [if_neg hnil]
        obtain ⟨hfst, hsnd⟩ := ih (n := n - (s.read n).1.length) (by omega) (got ++ (s.read n).1)
          (s.read n).2
        rw [hfst, hsnd, ← happend]
        -- the first read is a part of what is taken from the whole stream
        have htake : n = (s.read n).1.length + (n - (s.read n).1.length) := by omega
        generalize (s.read n).1 = r at hle htake ⊢
        generalize (s.read n).2.stream = rest
        generalize n - r.length = m at htake ⊢
        subst htake
        constructor
        · simp only [takeExactly, List.length_append, Nat.add_le_add_iff_left,
            List.take_length_add_append]
          split_ifs <;> simp
        · simp only [takeExactly, List.drop_length_add_append]

/-- The loop gets from the chunks what is to be got from the stream. -/
theorem readAll_eq_takeExactly (n : ℕ) (s : Segments α) :
    (s.readAll n).1 = (takeExactly n s.stream).1 ∧
      (s.readAll n).2.stream = (takeExactly n s.stream).2 := by
  obtain ⟨hfst, hsnd⟩ := readLoop_eq_takeExactly (le_refl n) [] s
  refine ⟨hfst.trans ?_, hsnd⟩
  cases (takeExactly n s.stream).1 <;> rfl

end Segments

/-- What has left, and how much each of the next writes will take. A write that takes
nothing has failed, and so has one after the last of them. -/
structure Outlet (α : Type) where
  written : List α := []
  takes : List ℕ := []

namespace Outlet

def writeLoop : List ℕ → List α → List α → Bool × Outlet α
  | takes, written, [] => (true, ⟨written, takes⟩)
  | [], written, _ :: _ => (false, ⟨written, []⟩)
  | 0 :: takes, written, _ :: _ => (false, ⟨written, takes⟩)
  | (k + 1) :: takes, written, d :: ds =>
    writeLoop takes (written ++ (d :: ds).take (k + 1)) ((d :: ds).drop (k + 1))

def writeAll (data : List α) (o : Outlet α) : Bool × Outlet α := writeLoop o.takes o.written data

theorem written_of_writeLoop {takes : List ℕ} {written data : List α}
    (h : (writeLoop takes written data).1 = true) :
    (writeLoop takes written data).2.written = written ++ data := by
  induction takes generalizing written data with
  | nil =>
      cases data with
      | nil => exact (List.append_nil written).symm
      | cons d ds => cases h
  | cons k takes ih =>
      cases data with
      | nil => exact (List.append_nil written).symm
      | cons d ds =>
          cases k with
          | zero => cases h
          | succ k =>
              rw [writeLoop] at h ⊢
              rw [ih h, List.append_assoc, List.take_append_drop]

/-- A loop that succeeds has written everything, in however many pieces. -/
theorem written_of_writeAll (o : Outlet α) {data : List α} (h : (o.writeAll data).1 = true) :
    (o.writeAll data).2.written = o.written ++ data :=
  written_of_writeLoop h

end Outlet

end SegmentedStreams
