import DockerEngine.Go.Path

/-!
# Random names (`future/future.go`)

`RandomId` renders the first eight bytes of a SHA-256 sum in hexadecimal, so its names
can stand for directory entries and never look like flags or separators.
-/

namespace Docker

open Go

/-- `RandomId`, from the sum of the random number it drew. -/
def randomId (sum : Vector UInt8 32) : GoString := hex (sum.toList.take 8)

theorem randomId_length (sum : Vector UInt8 32) : (randomId sum).length = 16 := by
  rw [randomId, hex_length, List.length_take, Vector.length_toList]
  omega

theorem randomId_ne_nil (sum : Vector UInt8 32) : randomId sum ≠ [] := by
  intro h
  have hlen := randomId_length sum
  rw [h] at hlen
  simp at hlen

/-- No byte of a random name comes before the digits, as `-`, `.` and `/` do. -/
theorem le_of_mem_randomId {sum : Vector UInt8 32} {c : UInt8} (h : c ∈ randomId sum) :
    48 ≤ c := by
  rcases mem_hex h with ⟨hlo, -⟩ | ⟨hlo, -⟩
  · exact hlo
  · exact UInt8.le_trans (by decide) hlo

theorem randomId_plain (sum : Vector UInt8 32) : PlainName (randomId sum) := by
  have hlen := randomId_length sum
  constructor
  · exact randomId_ne_nil sum
  · intro h
    rw [h] at hlen
    cases hlen
  · intro h
    rw [h] at hlen
    cases hlen
  · intro h
    exact absurd (le_of_mem_randomId h) (by decide)

end Docker
