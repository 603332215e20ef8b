import DockerEngine.Go.Itoa
import DockerEngine.Native.LxcTemplate

/-!
# The memory limits of a container

A key has the value of the last line that sets it: what comes in by a hostname with newlines is
above the section of the limits.

- `setting_limits`: the limits of a configuration are the last ones of its text
- `swapLimited_iff`: when the limit of memory and swap is what was asked for
-/

namespace Docker.LxcTemplate

open Go

def lines (text : GoString) : List GoString := text.splitOn 10

/-- What follows a key at the beginning of a line. -/
def dropKey (key line : GoString) : Option GoString :=
  if key <+: line then some (line.drop key.length) else none

/-- The value of the last line that sets the key. -/
def setting (key text : GoString) : Option GoString :=
  ((lines text).filterMap (dropKey (key ++ str " = "))).getLast?

/-- A limit of memory and swap is set, is no lower than the limit of memory, and is the one in
    the config, if there is one. -/
def SwapLimited (config : Config) (text : GoString) : Prop :=
  ∃ limit swap : Int,
    setting (str "lxc.cgroup.memory.limit_in_bytes") text = some (itoa limit) ∧
    setting (str "lxc.cgroup.memory.memsw.limit_in_bytes") text = some (itoa swap) ∧
    limit ≤ swap ∧ (0 < config.memorySwap → swap = config.memorySwap.toInt)

/-! ## Lines -/

theorem lines_text (ls : List GoString) : lines (text ls) = ls.flatMap lines ++ [[]] := by
  induction ls with
  | nil => rfl
  | cons l ls ih =>
    have hcons : text (l :: ls) = l ++ 10 :: text ls := by
      simp only [text, List.flatMap_cons, List.append_assoc]
      rfl
    rw [hcons, lines, List.splitOn_append_cons_self]
    change lines l ++ lines (text ls) = _
    rw [ih, List.flatMap_cons, List.append_assoc]

theorem lines_of_not_mem {l : GoString} (h : 10 ∉ l) : lines l = [l] :=
  List.splitOn_eq_singleton h

/-- The lines at the end of a text decide, if they set the key. -/
theorem setting_text_append {key value : GoString} {ls ms : List GoString}
    (hlast : ((ms.flatMap lines).filterMap (dropKey (key ++ str " = "))).getLast? = some value) :
    setting key (text (ls ++ ms)) = some value := by
  have hnil : dropKey (key ++ str " = ") [] = none := by
    have hne : ¬key ++ str " = " <+: [] := by
      rw [List.prefix_nil, List.append_eq_nil_iff]
      exact fun h => absurd h.2 (by decide)
    exact if_neg hne
  rw [setting, lines_text, List.flatMap_append, List.append_assoc, List.filterMap_append,
    List.filterMap_append, List.filterMap_cons_none hnil, List.filterMap_nil, List.append_nil,
    List.getLast?_append, hlast, Option.some_or]

@[simp] theorem dropKey_append (key rest : GoString) : dropKey key (key ++ rest) = some rest := by
  simp [dropKey]

/-- A line that sets a different key. -/
theorem dropKey_eq_none {key other : GoString} (h : ¬key <+: other) (h' : ¬other <+: key)
    (rest : GoString) : dropKey key (other ++ rest) = none := by
  apply if_neg
  intro hkey
  rcases List.prefix_or_prefix_of_prefix hkey (List.prefix_append other rest) with hle | hle
  · exact h hle
  · exact h' hle

theorem lines_itoa {key : GoString} (hkey : 10 ∉ key) (n : Int) :
    lines (key ++ itoa n) = [key ++ itoa n] := by
  refine lines_of_not_mem fun hmem => ?_
  rcases List.mem_append.mp hmem with hmem | hmem
  · exact hkey hmem
  · rcases mem_itoa_int hmem with heq | ⟨hlo, -⟩
    · exact absurd heq (by decide)
    · exact absurd hlo (by decide)

/-! ## The limits -/

def limitKey : GoString := str "lxc.cgroup.memory.limit_in_bytes = "

def softLimitKey : GoString := str "lxc.cgroup.memory.soft_limit_in_bytes = "

def memswKey : GoString := str "lxc.cgroup.memory.memsw.limit_in_bytes = "

/-- The section of the limits, line by line. -/
theorem limits_eq {config : Config} (hmemory : config.memory ≠ 0)
    (hswap : getMemorySwap config ≠ 0) :
    (limits config).flatMap lines = [str "# limits", [], limitKey ++ itoa config.memory.toInt,
      softLimitKey ++ itoa config.memory.toInt, [], memswKey ++ itoa (getMemorySwap config).toInt,
      [], []] := by
  simp only [limits, if_pos hmemory, if_pos hswap, List.cons_append, List.nil_append,
    List.flatMap_cons, List.flatMap_nil]
  rw [lines_itoa (by decide), lines_itoa (by decide), lines_itoa (by decide)]
  rfl

/-- The limits of a configuration are the last ones in its text. -/
theorem setting_limits (c : Container) (hmemory : c.config.memory ≠ 0)
    (hswap : getMemorySwap c.config ≠ 0) :
    setting (str "lxc.cgroup.memory.limit_in_bytes") (render c)
        = some (itoa c.config.memory.toInt) ∧
      setting (str "lxc.cgroup.memory.memsw.limit_in_bytes") (render c)
        = some (itoa (getMemorySwap c.config).toInt) := by
  have hlimit : str "lxc.cgroup.memory.limit_in_bytes" ++ str " = " = limitKey := by decide
  have hmemsw : str "lxc.cgroup.memory.memsw.limit_in_bytes" ++ str " = " = memswKey := by decide
  constructor
  · -- no line behind it has its key
    apply setting_text_append
    rw [hlimit, limits_eq hmemory hswap,
      List.filterMap_cons_none (by decide), List.filterMap_cons_none (by decide),
      List.filterMap_cons_some (dropKey_append _ _),
      List.filterMap_cons_none (dropKey_eq_none (by decide) (by decide) _),
      List.filterMap_cons_none (by decide),
      List.filterMap_cons_none (dropKey_eq_none (by decide) (by decide) _)]
    rfl
  · apply setting_text_append
    rw [hmemsw, limits_eq hmemory hswap,
      List.filterMap_cons_none (by decide), List.filterMap_cons_none (by decide),
      List.filterMap_cons_none (dropKey_eq_none (by decide) (by decide) _),
      List.filterMap_cons_none (dropKey_eq_none (by decide) (by decide) _),
      List.filterMap_cons_none (by decide),
      List.filterMap_cons_some (dropKey_append _ _)]
    rfl

/-- Twice the memory, wrapped to 64 bits. -/
theorem getMemorySwap_toInt {config : Config} (hmemory : 0 < config.memory)
    (hswap : 0 ≤ config.memorySwap) :
    (getMemorySwap config).toInt =
      if config.memory.toInt < 2 ^ 62 then 2 * config.memory.toInt
      else 2 * config.memory.toInt - 2 ^ 64 := by
  have hpos := Int64.lt_iff_toInt_lt.mp hmemory
  have hlt := config.memory.toInt_lt
  rw [Int64.toInt_zero] at hpos
  have hnonneg : ¬config.memorySwap < 0 := by
    rw [Int64.lt_iff_toInt_lt]
    have hle := Int64.le_iff_toInt_le.mp hswap
    omega
  rw [getMemorySwap, if_neg hnonneg, Int64.toInt_mul]
  change (config.memory.toInt * 2).bmod (2 ^ 64) = _
  rw [Int.bmod_def]
  split <;> split <;> omega

theorem getMemorySwap_ne_zero {config : Config} (hmemory : 0 < config.memory)
    (hswap : 0 ≤ config.memorySwap) : getMemorySwap config ≠ 0 := by
  have hvalue := getMemorySwap_toInt hmemory hswap
  have hpos := Int64.lt_iff_toInt_lt.mp hmemory
  have hlt := config.memory.toInt_lt
  intro h
  rw [Int64.toInt_zero] at hpos
  rw [h, Int64.toInt_zero] at hvalue
  split at hvalue <;> omega

/-- The product is no lower than the memory unless it wraps. -/
theorem le_getMemorySwap_iff {config : Config} (hmemory : 0 < config.memory)
    (hswap : 0 ≤ config.memorySwap) :
    config.memory.toInt ≤ (getMemorySwap config).toInt ↔ config.memory.toInt < 2 ^ 62 := by
  have hvalue := getMemorySwap_toInt hmemory hswap
  have hpos := Int64.lt_iff_toInt_lt.mp hmemory
  have hlt := config.memory.toInt_lt
  rw [Int64.toInt_zero] at hpos
  split at hvalue <;> omega

/-- What the section of the limits says about a configuration. -/
theorem swapLimited_render (c : Container) (hmemory : 0 < c.config.memory)
    (hswap : 0 ≤ c.config.memorySwap) :
    SwapLimited c.config (render c) ↔
      c.config.memory.toInt ≤ (getMemorySwap c.config).toInt ∧
        (0 < c.config.memorySwap → getMemorySwap c.config = c.config.memorySwap) := by
  have hne : c.config.memory ≠ 0 := by
    intro h
    rw [h] at hmemory
    exact absurd hmemory (by decide)
  obtain ⟨hlimit, hmemsw⟩ := setting_limits c hne (getMemorySwap_ne_zero hmemory hswap)
  constructor
  · rintro ⟨limit, swap, hlimit', hmemsw', hle, hequal⟩
    rw [hlimit, Option.some.injEq] at hlimit'
    rw [hmemsw, Option.some.injEq] at hmemsw'
    have hlimit'' : c.config.memory.toInt = limit := itoa_injective hlimit'
    have hmemsw'' : (getMemorySwap c.config).toInt = swap := itoa_injective hmemsw'
    rw [hlimit'', hmemsw'']
    exact ⟨hle, fun hpos => Int64.toInt_inj.mp (by rw [hmemsw'', hequal hpos])⟩
  · rintro ⟨hle, hequal⟩
    exact ⟨_, _, hlimit, hmemsw, hle, fun hpos => by rw [hequal hpos]⟩

/-- The limit of memory and swap is right when twice the memory fits into 63 bits and is what was
    asked for, if anything was. -/
theorem swapLimited_iff (c : Container) (hmemory : 0 < c.config.memory)
    (hswap : 0 ≤ c.config.memorySwap) :
    SwapLimited c.config (render c) ↔ c.config.memory.toInt < 2 ^ 62 ∧
      (c.config.memorySwap = 0 ∨ c.config.memorySwap.toInt = 2 * c.config.memory.toInt) := by
  rw [swapLimited_render c hmemory hswap, le_getMemorySwap_iff hmemory hswap]
  apply and_congr_right
  intro hfits
  have hvalue := getMemorySwap_toInt hmemory hswap
  have hle := Int64.le_iff_toInt_le.mp hswap
  rw [if_pos hfits] at hvalue
  rw [Int64.toInt_zero] at hle
  rw [Int64.lt_iff_toInt_lt, ← Int64.toInt_inj, ← Int64.toInt_inj, Int64.toInt_zero]
  omega

/-- What `-m` gives is right below 2 ^ 62. -/
theorem swapLimited_createConfig (c : Container) {memory : Int64} (hmemory : 0 < memory)
    (hc : c.config = createConfig c.id memory) :
    SwapLimited c.config (render c) ↔ memory.toInt < 2 ^ 62 := by
  have hmemory' : c.config.memory = memory := by rw [hc, createConfig]
  have hswap : c.config.memorySwap = 0 := by rw [hc, createConfig]
  rw [← hmemory'] at hmemory
  have hnonneg : 0 ≤ c.config.memorySwap := by
    rw [hswap]
    decide
  rw [swapLimited_render c hmemory hnonneg, le_getMemorySwap_iff hmemory hnonneg, hmemory', hswap]
  exact and_iff_left fun hlt => absurd hlt (by decide)

/-- A container with the given limits. -/
def limited (memory memorySwap : Int64) : Container :=
  ⟨str "c0ffee42", ⟨str "c0ffee42", memory, memorySwap⟩, ⟨str "10.0.3.2", 24⟩, str "/rootfs",
    str "/usr/bin/docker"⟩

theorem swapLimited_iff_default :
    SwapLimited (limited 1024 0).config (render (limited 1024 0)) ↔
      (limited 1024 0).config.memory.toInt < 2 ^ 62 ∧ ((limited 1024 0).config.memorySwap = 0 ∨
        (limited 1024 0).config.memorySwap.toInt = 2 * (limited 1024 0).config.memory.toInt) :=
  swapLimited_iff _ (by decide) (by decide)

/-- A limit of 300 is replaced by 200, and twice a large limit is negative. -/
theorem not_swapLimited :
    ¬SwapLimited (limited 100 300).config (render (limited 100 300)) ∧
      ¬SwapLimited (limited 4611686018427387904 0).config
        (render (limited 4611686018427387904 0)) := by
  constructor
  · rw [swapLimited_render _ (by decide) (by decide)]
    decide
  · rw [swapLimited_render _ (by decide) (by decide)]
    decide

end Docker.LxcTemplate
