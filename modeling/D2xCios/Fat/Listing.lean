import D2xCios.Fat.ReadErrors

/-!
# The buffer of a listing

`FAT_ReadDir` packs the names that it lists one behind the other, each with a NUL, and copies its
buffer to that of the request. It never compares where it is with the size of the two. The client
of FS leaves room for names of twelve letters, which no name for FS exceeds; other requests say
themselves how large their buffer is.
-/

namespace D2xCios.Fat.Wrapper

open D2xCios.Ffs D2xCios.Lib

/-! ## Requests -/

section Requests

variable {ν : Type} [DecidableEq ν] (names : Naming ν) (faults : Faults)

/-- The vectors of `IOCTL_FAT_READDIR` behind the path: how many of them there are for the result,
and what they say. -/
structure ReadDirVectors where
  iolen : UInt32
  entries : UInt32
  outbuf : Bool
  buflen : UInt32

/-- `IOCTL_FAT_READDIR` and `IOCTL_FAT_READDIR_FS` -/
def ioctlvReadDir (allocates forFS : Bool) (dirpath : Path) (vector : ReadDirVectors)
    (d : Disk ν) : Int × Option Listing × Disk ν :=
  if 1 < vector.iolen then readDir names faults allocates dirpath vector.buflen vector.entries
    forFS d
  else readDir names faults allocates dirpath 0 0 forFS d

/-- The request of the client, `FAT_ReadDir` of `ffs-plugin/fat.c`, which asks for names or for
their number only. -/
def clientVectors (outbuf : Bool) (entries : UInt32) : ReadDirVectors where
  iolen := if outbuf then 2 else 1
  entries := entries
  outbuf := outbuf
  buflen := if outbuf then 13 * entries else 0

end Requests

/-! ## Packed names -/

/-- Names one behind the other, each with its NUL. -/
def packed (list : List Path) : Path := list.flatMap fun name => name ++ [nul]

/-- How many of the names fit into a buffer. -/
def fitting (room : Nat) : List Path → Nat
  | [] => 0
  | name :: rest =>
    if name.length + 1 ≤ room then fitting (room - (name.length + 1)) rest + 1 else 0

@[simp] theorem packed_nil : packed [] = [] := rfl

@[simp] theorem packed_cons (name : Path) (rest : List Path) :
    packed (name :: rest) = name ++ [nul] ++ packed rest := rfl

theorem packed_cons_length (name : Path) (rest : List Path) :
    (packed (name :: rest)).length = name.length + 1 + (packed rest).length := by
  rw [packed_cons, List.length_append, List.length_append, List.length_singleton]

/-- Every name takes a byte at least. -/
theorem length_le_packed (list : List Path) : list.length ≤ (packed list).length := by
  induction list with
  | nil => exact Nat.le_refl 0
  | cons name rest ih =>
    rw [packed_cons_length, List.length_cons]
    omega

/-- All of them fit if there is room for them all. -/
theorem fitting_all {list : List Path} {room : Nat} (fits : (packed list).length ≤ room) :
    fitting room list = list.length := by
  induction list generalizing room with
  | nil => rfl
  | cons name rest ih =>
    rw [packed_cons_length] at fits
    rw [fitting, if_pos (by omega), ih (by omega), List.length_cons]

theorem fitting_zero (list : List Path) : fitting 0 list = 0 := by
  cases list with
  | nil => rfl
  | cons name rest => exact if_neg (Nat.not_succ_le_zero _)

/-- Names that are short enough fit into a buffer that leaves room for the longest. -/
theorem packed_le {list : List Path} {longest : Nat}
    (short : ∀ name ∈ list, name.length ≤ longest) :
    (packed list).length ≤ (longest + 1) * list.length := by
  induction list with
  | nil => exact Nat.zero_le _
  | cons name rest ih =>
    have first := short name List.mem_cons_self
    have others := ih fun name inside => short name (List.mem_cons_of_mem _ inside)
    rw [packed_cons_length, List.length_cons, Nat.mul_succ]
    omega

/-! ## What is listed -/

section Listed

variable {ν : Type} (names : Naming ν) (faults : Faults) (path : Path) (forFS : Bool)

/-- The names that a listing goes through, in the order of the directory. -/
def listed (es : Entries ν) : List Path :=
  ((seen faults path es).filter fun e => names.counted forFS e.1).map fun e => names.shown forFS e.1

/-- No more than `entries` of them, where that is not 0. -/
def limited (entries : UInt32) (list : List Path) : List Path :=
  if entries = 0 then list else list.take entries.toNat

variable {names faults path forFS}

/-- Names of files are no longer than FatFs makes them, and what is shown of them is not longer. -/
theorem shown_take {name : ν} (short : (names.text name).length ≤ maxLfn)
    (counted : names.counted forFS name = true) :
    (names.shown forFS name).take maxLfn = names.shown forFS name := by
  refine List.take_of_length_le ?_
  cases forFS with
  | false => exact short
  | true =>
    have known := mt (@passed_over_iff _ names true name).1 (by rw [counted]; decide)
    have small : (names.shown true name).length ≤ fsMaxname := by
      by_contra long
      exact known ⟨rfl, Nat.lt_of_not_le long⟩
    exact Nat.le_trans small (by decide)

/-- A listing whose first call is let down has no names. -/
theorem listed_fault {es : Entries ν} (fault : faults (.fReaddir path es.length) ≠ none) :
    listed names faults path forFS es = [] := by
  rw [listed, seen_fault fault]
  rfl

/-- The first entry is listed if it is counted, and then the others. -/
theorem listed_cons {e : ν × Node ν} {rest : Entries ν}
    (spared : faults (.fReaddir path (rest.length + 1)) = none) :
    listed names faults path forFS (e :: rest) =
      if names.counted forFS e.1 then
        names.shown forFS e.1 :: listed names faults path forFS rest
      else listed names faults path forFS rest := by
  rw [listed, seen, if_pos spared, List.filter_cons]
  split
  · rfl
  · rfl

/-- The names for FS fit into a buffer with room for as many names of twelve letters. -/
theorem packed_limited_le {es : Entries ν} {entries : UInt32} (limit : entries ≠ 0) :
    (packed (limited entries (listed names faults path true es))).length ≤ 13 * entries.toNat := by
  have short : ∀ name ∈ limited entries (listed names faults path true es), name.length ≤ 12 := by
    intro name inside
    rw [limited, if_neg limit] at inside
    obtain ⟨e, kept, rfl⟩ := List.mem_map.1 (List.mem_of_mem_take inside)
    have counted := (List.mem_filter.1 kept).2
    by_contra long
    have passed := (@passed_over_iff _ names true e.1).1 ⟨rfl, Nat.lt_of_not_le long⟩
    exact Bool.false_ne_true (passed.symm.trans counted)
  have few : (limited entries (listed names faults path true es)).length ≤ entries.toNat := by
    rw [limited, if_neg limit, List.length_take]
    exact Nat.min_le_left _ _
  exact Nat.le_trans (packed_le short) (Nat.mul_le_mul_left 13 few)

/-- The names that are still to be listed behind the first `n`. -/
def remaining (entries : UInt32) (n : Nat) (list : List Path) : List Path :=
  if entries = 0 then list else list.take (entries.toNat - n)

theorem remaining_nil (entries : UInt32) (n : Nat) : remaining entries n [] = [] := by
  rw [remaining, List.take_nil, ite_self]

/-- A name remains while more entries are asked for. -/
theorem remaining_cons {entries : UInt32} {n : Nat} (more : entries = 0 ∨ n < entries.toNat)
    (name : Path) (rest : List Path) :
    remaining entries n (name :: rest) = name :: remaining entries (n + 1) rest := by
  unfold remaining
  by_cases unlimited : entries = 0
  · rw [if_pos unlimited, if_pos unlimited]
  · have below := more.resolve_left unlimited
    rw [if_neg unlimited, if_neg unlimited,
      show entries.toNat - n = entries.toNat - (n + 1) + 1 by omega, List.take_succ_cons]

/-- The counter of the walk counts the entries as long as it stays within the bound. -/
theorem lt_entries_iff {entries : UInt32} {n : Nat} (bound : entries ≠ 0 → n ≤ entries.toNat) :
    entries = 0 ∨ UInt32.ofNat n < entries ↔ entries = 0 ∨ n < entries.toNat := by
  by_cases unlimited : entries = 0
  · exact iff_of_true (.inl unlimited) (.inl unlimited)
  · have small := bound unlimited
    have width := entries.toNat_lt
    rw [or_iff_right unlimited, or_iff_right unlimited, UInt32.lt_iff_toNat_lt, UInt32.toNat_ofNat',
      Nat.mod_eq_of_lt (by omega)]

variable (names faults path forFS) in
/-- The loop, where `n` names have been listed: the others are counted, and written if there is a
buffer. -/
def Packs (buffer : Bool) (entries : UInt32) (es : Entries ν) (n : Nat) (written : Path)
    (d : Disk ν) : Prop :=
  ∃ d', listEntries names faults path entries forFS buffer es ⟨.ofNat n, written⟩ d =
    (⟨.ofNat (n + (remaining entries n (listed names faults path forFS es)).length),
      written ++ if buffer then packed (remaining entries n (listed names faults path forFS es))
        else []⟩, d')

variable {buffer : Bool} {entries : UInt32} {es : Entries ν} {n : Nat} {written : Path}

/-- A walk that stops has packed what remains, if nothing does. -/
theorem Packs.of_stop {d : Disk ν} (d' : Disk ν)
    (stops : listEntries names faults path entries forFS buffer es ⟨.ofNat n, written⟩ d =
      (⟨.ofNat n, written⟩, d'))
    (none : remaining entries n (listed names faults path forFS es) = []) :
    Packs names faults path forFS buffer entries es n written d := by
  refine ⟨d', ?_⟩
  rw [none, packed_nil, ite_self, List.append_nil]
  exact stops

/-- A walk that has all it was asked for packs nothing more. -/
theorem packs_full (bound : entries ≠ 0 → n ≤ entries.toNat)
    (full : ¬ (entries = 0 ∨ n < entries.toNat)) (d : Disk ν) :
    Packs names faults path forFS buffer entries es n written d := by
  refine .of_stop d ?_ ?_
  · rw [listEntries.eq_def, if_neg (mt (lt_entries_iff bound).1 full)]
  · rw [not_or] at full
    rw [remaining, if_neg full.1, show entries.toNat - n = 0 by omega, List.take_zero]

/-- The walk packs the names that remain, as far as the room goes. -/
theorem listEntries_packs (short : ∀ e ∈ es, (names.text e.1).length ≤ maxLfn)
    (bound : entries ≠ 0 → n ≤ entries.toNat) (d : Disk ν) :
    Packs names faults path forFS buffer entries es n written d := by
  induction es generalizing n written d with
  | nil =>
    by_cases more : entries = 0 ∨ n < entries.toNat
    case neg => exact packs_full bound more d
    obtain ⟨d', ended⟩ : ∃ d', readDirEntry names faults path [] d = (.error fsEnoent, d') := by
      by_cases spared : faults (.fReaddir path 0) = none
      · exact ⟨_, readDirEntry_nil spared⟩
      · exact ⟨_, readDirEntry_fault spared⟩
    refine .of_stop d' ?_ (remaining_nil entries n)
    rw [listEntries, if_pos ((lt_entries_iff bound).2 more), ended]
  | cons e rest ih =>
    by_cases more : entries = 0 ∨ n < entries.toNat
    case neg => exact packs_full bound more d
    by_cases spared : faults (.fReaddir path (rest.length + 1)) = none
    case neg =>
      refine .of_stop d.failing ?_ ?_
      · rw [listEntries, if_pos ((lt_entries_iff bound).2 more), readDirEntry_fault spared]
      · rw [listed_fault spared, remaining_nil]
    have others := fun e inside => short e (List.mem_cons_of_mem _ inside)
    obtain ⟨buf, fetched⟩ := @fetchName_read _ names forFS e d
    rw [Packs, listEntries, if_pos ((lt_entries_iff bound).2 more), readDirEntry_cons spared]
    dsimp only
    rw [fetched, listed_cons spared]
    dsimp only
    by_cases counted : names.counted forFS e.1 = true
    · have known := mt (@passed_over_iff _ names forFS e.1).1 (by rw [counted]; decide)
      have later : Packs names faults path forFS buffer entries rest (n + 1)
          (if buffer then written ++ names.shown forFS e.1 ++ [nul] else written)
          { d with lfnBuf := buf } :=
        ih others (fun limit => more.resolve_left limit) _
      obtain ⟨d', run⟩ := later
      refine ⟨d', ?_⟩
      rw [UInt32.ofNat_add] at run
      rw [if_neg known, if_pos counted, remaining_cons more, List.length_cons,
        shown_take (short e List.mem_cons_self) counted]
      refine run.trans ?_
      rw [Nat.add_assoc, Nat.add_comm 1]
      cases buffer with
      | false => rfl
      | true => simp only [if_true, packed_cons, List.append_assoc]
    · rw [Bool.not_eq_true] at counted
      rw [if_pos ((passed_over_iff e.1).2 counted), if_neg (by rw [counted]; decide)]
      exact ih others bound _

end Listed

/-! ## What a listing promises -/

section Promise

variable {ν : Type} [DecidableEq ν] (names : Naming ν) (faults : Faults) (path : Path)
  (allocates forFS outbuf : Bool) (buflen entries : UInt32)

/-- What a listing gives its caller: it stays inside its buffer and, where there is one for the
result, brings the number of the names that fit, and these names. -/
structure Contained (result : Int × Option Listing) (d : Disk ν) : Prop where
  inside : ∀ out, result.2 = some out → out.written.length ≤ buflen.toNat
  brings : outbuf = true → result.1 = fsSuccess → ∃ es out,
    opened names faults d path = some es ∧ result.2 = some out ∧
      let all := limited entries (listed names faults path forFS es)
      out.cnt.toNat = fitting buflen.toNat all ∧
        packed (all.take (fitting buflen.toNat all)) <+: out.written.take buflen.toNat

/-- The names of a directory that is listed fit into the buffer. Where there is none, none of them
may be asked for. -/
def Fits (d : Disk ν) : Prop :=
  ∀ es, opened names faults d path = some es → (buflen = 0 ∨ allocates = true) →
    let all := limited entries (listed names faults path forFS es)
    if buflen = 0 then outbuf = true → UInt32.ofNat all.length = 0
    else (packed all).length ≤ buflen.toNat

variable {names faults path}

/-- A listing that does not begin. -/
theorem readDir_closed {d : Disk ν} (closed : opened names faults d path = none) :
    ∃ ret < 0, ∃ d', readDir names faults allocates path buflen entries forFS d =
      (ret, none, d') := by
  obtain ⟨ret, negative, fails⟩ := openDir_fails closed
  rcases @fOpen_cases _ _ names faults path d with file | ⟨e, other⟩
  · exact ⟨fsEfatal, by decide, d, by rw [readDir, file]⟩
  · exact ⟨ret, negative, d.failing, by rw [readDir, other]; simp only [fails]⟩

/-- The listing of a folder that opens. -/
theorem readDir_opened {d : Disk ν} {es : Entries ν}
    (opens : opened names faults d path = some es) :
    readDir names faults allocates path buflen entries forFS d =
      if buflen ≠ 0 ∧ allocates = false then (ipcEnomem, none, d)
      else
        let (out, d) := listEntries names faults path entries forFS (buflen ≠ 0) es ⟨0, []⟩ d
        (fsSuccess, some out, d) := by
  obtain ⟨e, other⟩ := @fOpen_directory _ _ names faults _ _ _ (opened_spared opens).2
  rw [readDir, other]
  simp only [openDir_opened opens, decide_eq_true_eq]

/-- A listing that goes through a directory. -/
theorem readDir_lists {d : Disk ν} {es : Entries ν} (opens : opened names faults d path = some es)
    (memory : buflen = 0 ∨ allocates = true)
    (short : ∀ e ∈ es, (names.text e.1).length ≤ maxLfn) :
    let all := limited entries (listed names faults path forFS es)
    ∃ d', readDir names faults allocates path buflen entries forFS d =
      (fsSuccess, some ⟨.ofNat all.length, if buflen = 0 then [] else packed all⟩, d') := by
  intro all
  have enough : ¬ (buflen ≠ 0 ∧ allocates = false) := by
    rintro ⟨some, none⟩
    exact memory.elim some fun allocated => Bool.false_ne_true (none.symm.trans allocated)
  have packs : Packs names faults path forFS (decide (buflen ≠ 0)) entries es 0 [] d :=
    listEntries_packs short (fun _ => Nat.zero_le _) d
  obtain ⟨d', run⟩ := packs
  refine ⟨d', ?_⟩
  rw [readDir_opened allocates forFS buflen entries opens, if_neg enough]
  have start : (⟨0, []⟩ : Listing) = ⟨.ofNat 0, []⟩ := rfl
  simp only [start, run]
  rw [Nat.zero_add, List.nil_append]
  by_cases none : buflen = 0
  · simp only [none]
    rfl
  · simp only [decide_eq_true_eq, if_pos (show buflen ≠ 0 from none), if_neg none]
    rfl

/-- The promise, for a listing of a directory. -/
theorem contained_listing {d : Disk ν} {es : Entries ν}
    (opens : opened names faults d path = some es) :
    let all := limited entries (listed names faults path forFS es)
    Contained names faults path forFS outbuf buflen entries
        (fsSuccess, some ⟨.ofNat all.length, if buflen = 0 then [] else packed all⟩) d ↔
      if buflen = 0 then outbuf = true → UInt32.ofNat all.length = 0
      else (packed all).length ≤ buflen.toNat := by
  intro all
  by_cases empty : buflen = 0
  · rw [if_pos empty, if_pos empty]
    have zero : buflen.toNat = 0 := congrArg UInt32.toNat empty
    constructor
    · intro contained wanted
      obtain ⟨es', out, opens', same, count, -⟩ := contained.brings wanted rfl
      obtain rfl : es = es' := Option.some.inj (opens.symm.trans opens')
      obtain rfl := Option.some.inj same
      rw [zero, fitting_zero] at count
      exact UInt32.toNat_inj.1 count
    · intro nothing
      refine ⟨fun out same => ?_, fun wanted _ => ⟨es, _, opens, rfl, ?_, ?_⟩⟩
      · obtain rfl := Option.some.inj same
        exact Nat.zero_le _
      · rw [zero, fitting_zero, nothing wanted]
        rfl
      · rw [zero, fitting_zero]
        exact List.nil_prefix
  · rw [if_neg empty, if_neg empty]
    constructor
    · exact fun contained => contained.inside _ rfl
    · intro fits
      have counted := length_le_packed all
      have width := buflen.toNat_lt
      refine ⟨fun out same => ?_, fun _ _ => ⟨es, _, opens, rfl, ?_, ?_⟩⟩
      · obtain rfl := Option.some.inj same
        exact fits
      · rw [fitting_all fits, UInt32.toNat_ofNat', Nat.mod_eq_of_lt (by omega)]
      · rw [fitting_all fits, List.take_length, List.take_of_length_le fits]

/-- Nothing is promised for a path that is not opened. -/
theorem contained_closed {d : Disk ν} (opens : opened names faults d path = none) :
    Contained names faults path forFS outbuf buflen entries
      ((readDir names faults allocates path buflen entries forFS d).1,
        (readDir names faults allocates path buflen entries forFS d).2.1) d := by
  obtain ⟨ret, negative, d', run⟩ := readDir_closed allocates forFS buflen entries opens
  rw [run]
  exact ⟨nofun, fun _ success => absurd success (ne_of_lt negative)⟩

/-- The promise, for a directory that is opened and memory for the buffer. -/
theorem contained_opened_iff {d : Disk ν} {es : Entries ν}
    (opens : opened names faults d path = some es) (memory : buflen = 0 ∨ allocates = true)
    (short : ∀ e ∈ es, (names.text e.1).length ≤ maxLfn) :
    Contained names faults path forFS outbuf buflen entries
        ((readDir names faults allocates path buflen entries forFS d).1,
          (readDir names faults allocates path buflen entries forFS d).2.1) d ↔
      if buflen = 0 then
        outbuf = true → UInt32.ofNat (limited entries (listed names faults path forFS es)).length =
          0
      else (packed (limited entries (listed names faults path forFS es))).length ≤
        buflen.toNat := by
  obtain ⟨d', run⟩ := readDir_lists allocates forFS buflen entries opens memory short
  rw [run]
  exact contained_listing forFS outbuf buflen entries opens

/-- A listing that fits is contained in its buffers. -/
theorem contained_of_fits {d : Disk ν} (short : ∀ es, opened names faults d path = some es →
      ∀ e ∈ es, (names.text e.1).length ≤ maxLfn)
    (fits : Fits names faults path allocates forFS outbuf buflen entries d) :
    Contained names faults path forFS outbuf buflen entries
      ((readDir names faults allocates path buflen entries forFS d).1,
        (readDir names faults allocates path buflen entries forFS d).2.1) d := by
  cases opens : opened names faults d path with
  | none => exact contained_closed allocates forFS outbuf buflen entries opens
  | some es =>
    by_cases memory : buflen = 0 ∨ allocates = true
    · rw [contained_opened_iff allocates forFS outbuf buflen entries opens memory (short es opens)]
      exact fits es opens memory
    · have noMemory : buflen ≠ 0 ∧ allocates = false := by
        rwa [not_or, Bool.not_eq_true] at memory
      rw [readDir_opened allocates forFS buflen entries opens, if_pos noMemory]
      have refused : ipcEnomem ≠ fsSuccess := by decide
      exact ⟨nofun, fun _ success => absurd success refused⟩

/-- The client is promised right: it asks for the number of the names only, or for some of them, as
many as it says, with a buffer that a word can measure. -/
theorem client_contained {d : Disk ν}
    (asked : outbuf = true → entries ≠ 0 ∧ 13 * entries.toNat < 2 ^ 32)
    (short : ∀ es, opened names faults d path = some es →
      ∀ e ∈ es, (names.text e.1).length ≤ maxLfn) :
    let vector := clientVectors outbuf entries
    let result := ioctlvReadDir names faults allocates true path vector d
    Contained names faults path true outbuf vector.buflen entries (result.1, result.2.1) d := by
  cases outbuf with
  | false =>
    have answer := contained_of_fits allocates true false 0 0 short fun es _ _ => by
      rw [if_pos rfl]
      exact nofun
    exact ⟨answer.inside, nofun⟩
  | true =>
    obtain ⟨limit, small⟩ := asked rfl
    have size : (13 * entries).toNat = 13 * entries.toNat := by
      rw [UInt32.toNat_mul, show (13 : UInt32).toNat = 13 from rfl, Nat.mod_eq_of_lt small]
    have some : entries.toNat ≠ 0 := fun zero => limit (UInt32.toNat_inj.1 zero)
    have buffer : 13 * entries ≠ 0 := by
      intro zero
      have none := congrArg UInt32.toNat zero
      rw [size] at none
      exact absurd none (by simpa using some)
    refine contained_of_fits allocates true true (13 * entries) entries short fun es _ _ => ?_
    rw [if_neg buffer, size]
    exact packed_limited_le limit

/-- A listing keeps its promise exactly if the names fit that it is asked for, and always to a
client of the file system. -/
theorem readDir_contained_iff {d : Disk ν} (short : ∀ es, opened names faults d path = some es →
      ∀ e ∈ es, (names.text e.1).length ≤ maxLfn) :
    (Contained names faults path forFS outbuf buflen entries
        ((readDir names faults allocates path buflen entries forFS d).1,
          (readDir names faults allocates path buflen entries forFS d).2.1) d ↔
      Fits names faults path allocates forFS outbuf buflen entries d) ∧
    ((outbuf = true → entries ≠ 0 ∧ 13 * entries.toNat < 2 ^ 32) →
      let vector := clientVectors outbuf entries
      let result := ioctlvReadDir names faults allocates true path vector d
      Contained names faults path true outbuf vector.buflen entries (result.1, result.2.1) d) := by
  refine ⟨?_, fun asked => client_contained allocates outbuf entries asked short⟩
  constructor
  · intro contained es opens memory
    exact (contained_opened_iff allocates forFS outbuf buflen entries opens memory
      (short es opens)).1 contained
  · exact contained_of_fits allocates forFS outbuf buflen entries short

end Promise

/-! ## A buffer of a few bytes -/

/-- The folder opens. -/
theorem saveDisk_opened :
    opened longNames noFaults saveDisk "0:/save".toList = some saveEntries := by
  rw [opened, if_pos (by decide)]
  exact saveDisk_entriesOf

/-- Its names are short. -/
theorem saveEntries_short : ∀ e ∈ saveEntries, (longNames.text e.1).length ≤ maxLfn := by
  intro e inside
  rcases List.mem_pair.1 inside with rfl | rfl
  · decide
  · decide

/-- They take 12 bytes. -/
theorem saveEntries_packed :
    (packed (limited 0 (listed longNames noFaults "0:/save".toList false saveEntries))).length =
      12 :=
  rfl

/-- Both names of `/save` fit into sixteen bytes. -/
theorem saveDisk_contained : Contained longNames noFaults "0:/save".toList false true 16 0
    ((readDir longNames noFaults true "0:/save".toList 16 0 false saveDisk).1,
      (readDir longNames noFaults true "0:/save".toList 16 0 false saveDisk).2.1) saveDisk := by
  refine (readDir_contained_iff true false true 16 0 fun es opens => ?_).1.2 fun es opens _ => ?_
  · obtain rfl : saveEntries = es := Option.some.inj (saveDisk_opened.symm.trans opens)
    exact saveEntries_short
  · obtain rfl : saveEntries = es := Option.some.inj (saveDisk_opened.symm.trans opens)
    rw [if_neg (by decide), saveEntries_packed]
    decide

/-- They are written past a buffer of five. -/
theorem saveDisk_not_contained : ¬ Contained longNames noFaults "0:/save".toList false true 5 0
    ((readDir longNames noFaults true "0:/save".toList 5 0 false saveDisk).1,
      (readDir longNames noFaults true "0:/save".toList 5 0 false saveDisk).2.1) saveDisk := by
  obtain ⟨d', run⟩ := readDir_lists true false 5 0 saveDisk_opened (.inr rfl) saveEntries_short
  rw [run]
  intro contained
  have inside := contained.inside _ rfl
  rw [if_neg (by decide), saveEntries_packed] at inside
  exact absurd inside (by decide)

end D2xCios.Fat.Wrapper
