import D2xCios.CiosLib.Effects

/-!
# Strings

The copies of `libc.c` that end at a NUL, and the routines all together.
-/

namespace D2xCios.CiosLib

open D2xCios.Lib

variable {when : Prop}

/-- The string `s` is at `a`, with its NUL. -/
structure StringAt (mem : Space 32 Byte) (a : Word) (s : List Byte) : Prop where
  cells : mem.get a (s.length + 1) = s ++ [0]
  inside : 0 ∉ s

namespace StringAt

variable {mem : Space 32 Byte} {a : Word} {c : Byte} {s : List Byte}

/-- The empty string is its terminator. -/
theorem nil (string : StringAt mem a []) : mem a = 0 := by
  have cells := string.cells
  rw [List.length_nil, Space.get_succ] at cells
  exact (List.cons.inj cells).1

/-- The first character is there, and is no terminator. -/
theorem head (string : StringAt mem a (c :: s)) : mem a = c ∧ c ≠ 0 := by
  have cells := string.cells
  rw [List.length_cons, Space.get_succ] at cells
  exact ⟨(List.cons.inj cells).1, fun same => string.inside (same ▸ List.mem_cons_self)⟩

/-- The string behind its first character. -/
theorem tail (string : StringAt mem a (c :: s)) : StringAt mem (a + 1) s := by
  have cells := string.cells
  rw [List.length_cons, Space.get_succ] at cells
  exact ⟨(List.cons.inj cells).2, fun inside => string.inside (List.mem_cons_of_mem c inside)⟩

/-- A store that does not touch the string. -/
theorem put (string : StringAt mem a s) {dest : Word} {values : List Byte}
    (apart : Apart dest values.length a (s.length + 1)) : StringAt (mem.put dest values) a s where
  cells := by rw [Space.get_put_apart mem apart, string.cells]
  inside := string.inside

end StringAt

/-- The loop of `strcpy` writes the string with its terminator. -/
theorem copyString_writes {inMem1 : Bool} {s : List Byte} {s1 s2 : Word} {rounds : Nat} (bus : Bus)
    (string : StringAt bus.mem s2 s) (enough : s.length < rounds) (room : s.length + 1 ≤ 2 ^ 32)
    (apart : Apart s1 (s.length + 1) s2 (s.length + 1))
    (chosen : when → Chosen inMem1 s1 (s.length + 1)) :
    ∃ bus', copyString inMem1 rounds s1 s2 bus = some bus' ∧
      Writes when s1 (s ++ [0]) bus bus' := by
  induction s generalizing s1 s2 rounds bus with
  | nil =>
    obtain ⟨rounds, rfl⟩ := Nat.exists_eq_succ_of_ne_zero (Nat.ne_of_gt enough)
    have data : bus.load8 s2 = 0 := string.nil
    refine ⟨bus.storeByte inMem1 s1 0, ?_, storeByte_writes chosen 0 bus⟩
    rw [copyString]
    simp only [data, if_pos]
  | cons c s ih =>
    rw [List.length_cons] at enough room apart chosen
    obtain ⟨rounds, rfl⟩ := Nat.exists_eq_succ_of_ne_zero (Nat.ne_of_gt (Nat.zero_lt_of_lt enough))
    obtain ⟨data, visible⟩ := string.head
    have first := storeByte_writes chosen c bus
    have kept : StringAt (bus.storeByte inMem1 s1 c).mem (s2 + 1) s := by
      rw [first.mem]
      have later := apart.later 0 1 1 (s.length + 1) (by omega) (by omega)
      rw [ahead_zero] at later
      exact string.tail.put later
    obtain ⟨bus', run, rest⟩ := @ih (s1 + 1) (s2 + 1) rounds _ kept (by omega) (by omega)
      (apart.later 1 1 _ _ (by omega) (by omega)) fun holds => (chosen holds).tail
    have bound : (s ++ [0]).length < 2 ^ 32 := by
      rw [List.length_append, List.length_singleton]
      omega
    refine ⟨bus', ?_, first.cons rest bound⟩
    rw [copyString]
    simp only [show bus.load8 s2 = c from data, if_neg visible]
    exact run

/-- The end of a string is found. -/
theorem stringEnd_eq {bus : Bus} {s : List Byte} {a : Word} {rounds : Nat}
    (string : StringAt bus.mem a s) (enough : s.length < rounds) :
    stringEnd bus rounds a = some (ahead a s.length) := by
  induction s generalizing a rounds with
  | nil =>
    obtain ⟨rounds, rfl⟩ := Nat.exists_eq_succ_of_ne_zero (Nat.ne_of_gt enough)
    have data : bus.load8 a = 0 := string.nil
    rw [stringEnd, if_pos data, List.length_nil, ahead_zero]
  | cons c s ih =>
    rw [List.length_cons] at enough
    obtain ⟨rounds, rfl⟩ := Nat.exists_eq_succ_of_ne_zero (Nat.ne_of_gt (Nat.zero_lt_of_lt enough))
    obtain ⟨data, visible⟩ := string.head
    have visible' : ¬ bus.load8 a = 0 := fun none => visible (data.symm.trans none)
    have rest := @ih (a + 1) rounds string.tail (by omega)
    rw [stringEnd, if_neg visible', rest, List.length_cons, Nat.add_comm, ← ahead_ahead]
    rfl

/-- `strcpy` writes the string with its terminator. -/
theorem strcpy_writes {s : List Byte} {s1 s2 : Word} {rounds : Nat} (bus : Bus)
    (string : StringAt bus.mem s2 s) (enough : s.length < rounds)
    (apart : Apart s1 (s.length + 1) s2 (s.length + 1)) (fits : Fits s1 (s.length + 1)) :
    ∃ bus', strcpy rounds s1 s2 bus = some (s1, bus') ∧ Writes when s1 (s ++ [0]) bus bus' := by
  unfold Fits at fits
  obtain ⟨bus', run, writes⟩ := @copyString_writes when _ s s1 s2 rounds bus string enough
    (by omega) apart fun _ => chosen_decide fits
  exact ⟨bus', by rw [strcpy, run, Option.map_some], writes⟩

/-- `strcat` writes the second string behind the first one. -/
theorem strcat_writes {s t : List Byte} {s1 s2 : Word} {rounds : Nat} (bus : Bus)
    (start : StringAt bus.mem s1 t) (string : StringAt bus.mem s2 s) (enough : s.length < rounds)
    (enough' : t.length < rounds) (apart : Apart s1 (t.length + (s.length + 1)) s2 (s.length + 1))
    (fits : Fits s1 (t.length + (s.length + 1))) :
    ∃ bus', strcat rounds s1 s2 bus = some (s1, bus') ∧
      Writes when (ahead s1 t.length) (s ++ [0]) bus bus' := by
  have room := fits
  unfold Fits at room
  have later : Apart (ahead s1 t.length) (s.length + 1) s2 (s.length + 1) := by
    have part := apart.later t.length 0 (s.length + 1) (s.length + 1) (by omega) (by omega)
    rwa [ahead_zero] at part
  obtain ⟨bus', run, writes⟩ := @copyString_writes when _ s (ahead s1 t.length) s2 rounds bus string
    enough (by omega) later fun _ => chosen_decide fits.later
  refine ⟨bus', ?_, writes⟩
  rw [strcat, stringEnd_eq start enough', Option.bind_some, run, Option.map_some]

/-! ## strncpy -/

/-- What `strncpy` takes of the `num` bytes from `src` on: those in front of the first NUL. -/
def taken (mem : Space 32 Byte) (src : Word) (num : Nat) : List Byte := stringAt 0 (mem.get src num)

/-- The bytes that it looks at. -/
def looked (mem : Space 32 Byte) (src : Word) (num : Nat) : Nat :=
  min num ((taken mem src num).length + 1)

theorem taken_succ (mem : Space 32 Byte) (src : Word) (num : Nat) : taken mem src (num + 1) =
    if mem src = 0 then [] else mem src :: taken mem (src + 1) num := by
  rw [taken, Space.get_succ, stringAt, List.takeWhile_cons]
  by_cases data : mem src = 0
  · rw [if_pos data, data]
    rfl
  · rw [if_neg data, if_pos (decide_eq_true data)]
    rfl

/-- Either a NUL is among the bytes, or all of them are taken. -/
theorem taken_cases (mem : Space 32 Byte) (src : Word) (num : Nat) :
    (StringAt mem src (taken mem src num) ∧ (taken mem src num).length < num) ∨
      (0 ∉ mem.get src num ∧ taken mem src num = mem.get src num) := by
  induction num generalizing src with
  | zero => exact .inr ⟨List.not_mem_nil, rfl⟩
  | succ num ih =>
    rw [taken_succ]
    by_cases data : mem src = 0
    · rw [if_pos data]
      refine .inl ⟨⟨?_, List.not_mem_nil⟩, num.succ_pos⟩
      rw [List.length_nil, Space.get_succ, data]
      rfl
    · rw [if_neg data, Space.get_succ, List.length_cons]
      rcases ih (src + 1) with ⟨string, short⟩ | ⟨visible, all⟩
      · refine .inl ⟨⟨?_, ?_⟩, Nat.succ_lt_succ short⟩
        · rw [List.length_cons, Space.get_succ, List.cons_append]
          exact congrArg (mem src :: ·) string.cells
        · exact fun inside => (List.mem_cons.1 inside).elim (fun same => data same.symm)
            string.inside
      · refine .inr ⟨?_, congrArg (mem src :: ·) all⟩
        exact fun inside => (List.mem_cons.1 inside).elim (fun same => data same.symm) visible

/-- The first loop, when it comes to the NUL. -/
theorem strncpyCopy_string {inMem1 : Bool} {s : List Byte} {dest src : Word} {num : Nat} (bus : Bus)
    (string : StringAt bus.mem src s) (short : s.length < num) (room : num ≤ 2 ^ 32)
    (apart : Apart dest num src (s.length + 1)) (chosen : when → Chosen inMem1 dest num) :
    ∃ bus', strncpyCopy inMem1 num dest src bus =
        (ahead dest (s.length + 1), num - (s.length + 1), bus') ∧
      Writes when dest (s ++ [0]) bus bus' := by
  induction s generalizing dest src num bus with
  | nil =>
    obtain ⟨num, rfl⟩ := Nat.exists_eq_succ_of_ne_zero (Nat.ne_of_gt short)
    have data : bus.load8 src = 0 := string.nil
    refine ⟨bus.storeByte inMem1 dest 0, ?_, storeByte_writes chosen 0 bus⟩
    rw [strncpyCopy]
    simp only [data, if_pos]
    rfl
  | cons c s ih =>
    rw [List.length_cons] at short apart
    obtain ⟨num, rfl⟩ := Nat.exists_eq_succ_of_ne_zero (Nat.ne_of_gt (Nat.zero_lt_of_lt short))
    obtain ⟨data, visible⟩ := string.head
    have first := storeByte_writes chosen c bus
    have kept : StringAt (bus.storeByte inMem1 dest c).mem (src + 1) s := by
      rw [first.mem]
      have later := apart.later 0 1 1 (s.length + 1) (by omega) (by omega)
      rw [ahead_zero] at later
      exact string.tail.put later
    obtain ⟨bus', run, rest⟩ := @ih (dest + 1) (src + 1) num _ kept (by omega) (by omega)
      (apart.later 1 1 _ _ (by omega) (by omega)) fun holds => (chosen holds).tail
    have bound : (s ++ [0]).length < 2 ^ 32 := by
      rw [List.length_append, List.length_singleton]
      omega
    refine ⟨bus', ?_, first.cons rest bound⟩
    rw [strncpyCopy]
    simp only [show bus.load8 src = c from data, if_neg visible]
    have left : num + 1 - (s.length + 1 + 1) = num - (s.length + 1) := Nat.succ_sub_succ _ _
    have last : ahead dest (s.length + 1 + 1) = ahead (dest + 1) (s.length + 1) := by
      rw [Nat.add_comm (s.length + 1), ← ahead_ahead]
      rfl
    rw [run, List.length_cons, left, last]

/-- The first loop, when it does not. -/
theorem strncpyCopy_all {inMem1 : Bool} {dest src : Word} {num : Nat} (bus : Bus)
    (visible : 0 ∉ bus.mem.get src num) (room : num ≤ 2 ^ 32) (apart : Apart dest num src num)
    (chosen : when → Chosen inMem1 dest num) :
    ∃ bus', strncpyCopy inMem1 num dest src bus = (ahead dest num, 0, bus') ∧
      Copies when dest src num bus bus' := by
  induction num generalizing dest src bus with
  | zero => exact ⟨bus, by rw [strncpyCopy, ahead_zero], .zero dest src bus⟩
  | succ num ih =>
    have data : ¬ bus.load8 src = 0 := fun none => visible (by
      rw [Space.get_succ]
      exact none ▸ List.mem_cons_self)
    have first := storeByte_writes chosen (bus.load8 src) bus
    have cell : bus.mem.get src 1 = [bus.load8 src] := by
      rw [Space.get_succ]
      rfl
    have kept : (bus.storeByte inMem1 dest (bus.load8 src)).mem.get (src + 1) num =
        bus.mem.get (src + 1) num := by
      rw [first.mem]
      have later := apart.later 0 1 1 num (by omega) (by omega)
      rw [ahead_zero] at later
      exact Space.get_put_apart _ later
    obtain ⟨bus', run, rest⟩ := @ih (dest + 1) (src + 1) _
      (by
        rw [kept]
        rw [Space.get_succ] at visible
        exact fun inside => visible (List.mem_cons_of_mem _ inside))
      (by omega) (apart.later 1 1 _ _ (by omega) (by omega))
      fun holds => (chosen holds).tail
    rw [← cell] at first
    have whole := Copies.add first rest (by omega) (Nat.add_comm num 1 ▸ apart.forward)
    rw [Nat.add_comm 1 num] at whole
    refine ⟨bus', ?_, whole⟩
    rw [strncpyCopy]
    simp only [if_neg data]
    rw [run, Nat.add_comm num, ← ahead_ahead]
    rfl

/-- The padding of `strncpy` is zeros. -/
theorem strncpyPad_writes {inMem1 : Bool} {num : Nat} {dest : Word} (bus : Bus)
    (room : num ≤ 2 ^ 32) (chosen : when → Chosen inMem1 dest num) :
    Writes when dest (List.replicate num 0) bus (strncpyPad inMem1 num dest bus) := by
  induction num generalizing dest bus with
  | zero => exact .nil dest bus
  | succ num ih =>
    rw [strncpyPad, storeNul_eq]
    have first := storeByte_writes chosen 0 bus
    have rest := @ih (dest + 1) (bus.storeByte inMem1 dest 0) (by omega)
      fun holds => (chosen holds).tail
    exact first.cons rest (by rw [List.length_replicate]; omega)

/-- `strncpy` writes what it takes, and pads it to the length. -/
theorem strncpy_writes {dest src : Word} {num : Nat} (bus : Bus) (fits : Fits dest num)
    (apart : Apart dest num src (looked bus.mem src num)) :
    Writes when dest (taken bus.mem src num ++
        List.replicate (num - (taken bus.mem src num).length) 0)
      bus (strncpy dest src num bus).2 := by
  have room : num ≤ 2 ^ 32 := by
    unfold Fits at fits
    omega
  have chosen : when → Chosen (decide (dest < mem1Size)) dest num := fun _ => chosen_decide fits
  rw [strncpy]
  rcases taken_cases bus.mem src num with ⟨string, short⟩ | ⟨visible, all⟩
  · rw [looked, Nat.min_eq_right short] at apart
    obtain ⟨bus', run, copied⟩ := strncpyCopy_string bus string short room apart chosen
    generalize taken bus.mem src num = s at *
    obtain ⟨left, rfl⟩ := Nat.exists_eq_add_of_le short
    have padded := strncpyPad_writes bus' (by omega) fun holds => (chosen holds).later
    simp only [run]
    rw [Nat.add_sub_cancel_left, show s.length + 1 + left - s.length = 1 + left by omega,
      List.replicate_add, ← List.append_assoc]
    refine copied.append ?_ ?_
    · rw [List.length_append, List.length_singleton]
      exact padded
    · rw [List.length_append, List.length_singleton, List.length_replicate]
      exact room
  · have length := congrArg List.length all
    rw [Space.get_length] at length
    rw [looked, length, Nat.min_eq_left (Nat.le_succ num)] at apart
    obtain ⟨bus', run, copied⟩ := strncpyCopy_all bus visible room apart chosen
    simp only [run]
    rw [all, Space.get_length, Nat.sub_self, List.replicate_zero, List.append_nil]
    exact copied

/-! ## All of them -/

/-- A call has returned `ret`, the memory is as before but for `values` from `dest` on, and MEM1
takes every store that it has made. -/
structure Done (before : Bus) (ret dest : Word) (values : List Byte) (result : Word × Bus) :
    Prop where
  ret : result.1 = ret
  mem : result.2.mem = before.mem.put dest values
  stores : ∃ new, result.2.stores = before.stores ++ new ∧ ∀ store ∈ new, store.Safe

/-- A function that writes, with its result. -/
theorem Writes.done {before : Bus} {ret dest : Word} {values : List Byte} {result : Word × Bus}
    (writes : Writes True dest values before result.2) (returned : result.1 = ret) :
    Done before ret dest values result where
  ret := returned
  mem := writes.mem
  stores := writes.stores trivial

/-- On runs that do not overlap and do not go round the address space, `memset`, `memcpy`, `strcpy`,
`strcat` and `strncpy` leave what the C standard says, and make no store that MEM1 does not take. -/
theorem libc_stores (bus : Bus) :
    (∀ dest c size, Fits dest size →
      Done bus dest dest (List.replicate size (c.setWidth 8)) (memset dest c size bus)) ∧
    (∀ dest src size, Fits dest size → Fits src size → Apart dest size src size →
      Done bus dest dest (bus.mem.get src size) (memcpy dest src size bus)) ∧
    (∀ s1 s2 s, StringAt bus.mem s2 s → Fits s1 (s.length + 1) → Fits s2 (s.length + 1) →
      Apart s1 (s.length + 1) s2 (s.length + 1) → ∀ rounds, s.length < rounds →
        ∃ result, strcpy rounds s1 s2 bus = some result ∧ Done bus s1 s1 (s ++ [0]) result) ∧
    (∀ s1 s2 t s, StringAt bus.mem s1 t → StringAt bus.mem s2 s →
      Fits s1 (t.length + (s.length + 1)) → Fits s2 (s.length + 1) →
      Apart s1 (t.length + (s.length + 1)) s2 (s.length + 1) →
      ∀ rounds, s.length < rounds → t.length < rounds →
        ∃ result, strcat rounds s1 s2 bus = some result ∧
          Done bus s1 (ahead s1 t.length) (s ++ [0]) result) ∧
    ∀ dest src num, Fits dest num → Fits src (looked bus.mem src num) →
      Apart dest num src (looked bus.mem src num) →
        Done bus dest dest (taken bus.mem src num ++
          List.replicate (num - (taken bus.mem src num).length) 0) (strncpy dest src num bus) := by
  refine ⟨?_, ?_, ?_, ?_, ?_⟩
  · intro dest c size fits
    have room : size ≤ 2 ^ 32 := Nat.le_of_add_left_le fits
    exact (memset_writes dest c bus room fun _ => fits).done (memset_returns dest c size bus)
  · intro dest src size fits _ apart
    have room : size ≤ 2 ^ 32 := Nat.le_of_add_left_le fits
    exact Writes.done (memcpy_copies bus room apart.forward fun _ => fits)
      (memcpy_returns dest src size bus)
  · intro s1 s2 s string fits _ apart rounds enough
    obtain ⟨bus', run, writes⟩ := strcpy_writes bus string enough apart fits
    exact ⟨(s1, bus'), run, writes.done rfl⟩
  · intro s1 s2 t s start string fits _ apart rounds enough enough'
    obtain ⟨bus', run, writes⟩ := strcat_writes bus start string enough enough' apart fits
    exact ⟨(s1, bus'), run, writes.done rfl⟩
  · intro dest src num fits _ apart
    exact (strncpy_writes bus fits apart).done rfl

/-- A clear memory with the string `d2x` at the address `a`. -/
def greeting (a : Word) : Bus where
  mem := Space.put (fun _ => 0) a [0x64, 0x32, 0x78]
  stores := []

/-- The calls at the end of MEM1: seven bytes across it, and the string put there. -/
theorem libc_stores_mem1 :
    Done (greeting 0) 0x17FFFFD 0x17FFFFD (List.replicate 7 0xFF)
      (memset 0x17FFFFD 0xFFFFFFFF 7 (greeting 0)) ∧
    ∃ result, strcpy 9 0x17FFFFE 0 (greeting 0) = some result ∧
      Done (greeting 0) 0x17FFFFE 0x17FFFFE [0x64, 0x32, 0x78, 0] result := by
  have string : StringAt (greeting 0).mem 0 [0x64, 0x32, 0x78] := ⟨by decide, by decide⟩
  obtain ⟨sets, -, copies, -⟩ := libc_stores (greeting 0)
  exact ⟨sets 0x17FFFFD 0xFFFFFFFF 7 (by unfold Fits; decide),
    copies 0x17FFFFE 0 _ string (by unfold Fits; decide) (by unfold Fits; decide)
      (Apart.symm (.of_le (by decide) (by decide))) 9 (by decide)⟩

end D2xCios.CiosLib
