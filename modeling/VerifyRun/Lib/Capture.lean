-- Bounded capture of a stream that comes in chunks: a buffer keeps one element
-- more than its limit, which is enough to see that there were more, and drops
-- the rest. What is kept does not depend on the chunks.
import Mathlib

namespace bounded_capture

variable {α : Type}

/-- What a buffer keeps of the next chunk. -/
def keep (limit : ℕ) (buffer chunk : List α) : List α :=
  if 0 < limit + 1 - buffer.length then buffer ++ chunk.take (limit + 1 - buffer.length)
  else buffer

/-- One chunk: the buffer goes on with the same stream. -/
theorem keep_take (limit : ℕ) (s chunk : List α) :
    keep limit (s.take (limit + 1)) chunk = (s ++ chunk).take (limit + 1) := by
  unfold keep
  rw [List.take_append]
  by_cases hroom : s.length < limit + 1
  · -- there is room, so all of the stream was kept so far
    rw [List.take_of_length_le (by omega), if_pos (by omega)]
  · have hfull : (s.take (limit + 1)).length = limit + 1 := by
      rw [List.length_take]
      omega
    rw [hfull, Nat.sub_self, if_neg (Nat.lt_irrefl 0), Nat.sub_eq_zero_of_le (by omega),
      List.take_zero, List.append_nil]

/-- The element over the limit is not returned. -/
theorem take_kept (limit : ℕ) (s : List α) : (s.take (limit + 1)).take limit = s.take limit := by
  rw [List.take_take, Nat.min_eq_left (Nat.le_succ limit)]

/-- The element over the limit says that there were more. -/
theorem limit_lt_length_kept {limit : ℕ} {s : List α} :
    limit < (s.take (limit + 1)).length ↔ limit < s.length := by
  rw [List.length_take]
  omega

end bounded_capture
