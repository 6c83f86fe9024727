import D2xCios.Ffs.Paths
import D2xCios.Lib.Cells
import D2xCios.Lib.Escapes

/-!
# Escaped names

`fat_tools.c`. `FAT_Escape` writes the seven characters that a name may hold on the NAND
but not on FAT as sequences of four, and `FAT_Unescape` turns them back in place. The
introducer `&` is an ordinary character of names, so that a name that spells a sequence is
not told apart from the one with the character.
-/

namespace D2xCios.Fat

open D2xCios.Ffs D2xCios.Lib

/-- The sequences of `FAT_Escape`, without their introducer. -/
def fatEscapes : Escapes Char where
  introducer := '&'
  table :=
    [('"', "qt;".toList), ('*', "st;".toList), (':', "cl;".toList), ('<', "lt;".toList),
      ('>', "gt;".toList), ('?', "qm;".toList), ('|', "vb;".toList)]
  nonempty := by decide
  introducer_free := by decide
  literal := by decide
  distinct := by decide
  unambiguous := by decide

/-- The character at the end of a string. -/
def nul : Char := '\x00'

/-! ## FAT_Unescape -/

/-- `FAT_Unescape` at the head of its loop. `copied` is not part of the program: for each store,
where it goes and from where the next character is read. -/
structure Unescaping where
  mem : Cells Char
  src : Nat
  dst : Nat
  copied : List (Nat × Nat)

/-- `!strncmp(src, seq, 3)`. What lies behind the end of the string makes no difference, as no
sequence holds a NUL. -/
def matchesAt (mem : Cells Char) (src : Nat) (seq : Path) : Bool := mem.window src 3 = seq

/-- The character that the sequence at `src` stands for, or `&`. -/
def unescapeAt (mem : Cells Char) (src : Nat) : Char :=
  if matchesAt mem src "qt;".toList then '"'
  else if matchesAt mem src "st;".toList then '*'
  else if matchesAt mem src "cl;".toList then ':'
  else if matchesAt mem src "lt;".toList then '<'
  else if matchesAt mem src "gt;".toList then '>'
  else if matchesAt mem src "qm;".toList then '?'
  else if matchesAt mem src "vb;".toList then '|'
  else '&'

/-- `*(dst++) = c`, when `src` is the next character to be read. -/
def Unescaping.put (c : Char) (src : Nat) (s : Unescaping) : Unescaping where
  mem := s.mem.write s.dst c
  src := src
  dst := s.dst + 1
  copied := s.copied ++ [(s.dst, src)]

@[simp] theorem Unescaping.put_src (c : Char) (src : Nat) (s : Unescaping) :
    (s.put c src).src = src := rfl

@[simp] theorem Unescaping.put_dst (c : Char) (src : Nat) (s : Unescaping) :
    (s.put c src).dst = s.dst + 1 := rfl

@[simp] theorem Unescaping.put_copied (c : Char) (src : Nat) (s : Unescaping) :
    (s.put c src).copied = s.copied ++ [(s.dst, src)] := rfl

/-- The loop of `FAT_Unescape` in at most `rounds` rounds, and the NUL behind it. -/
def unescapeLoop : (rounds : Nat) → Unescaping → Option Unescaping
  | 0, _ => none
  | rounds + 1, s =>
    let c := s.mem s.src
    let src := s.src + 1
    if c = nul then
      some { s with
        mem := s.mem.write s.dst nul
        src := src
        copied := s.copied ++ [(s.dst, src)] }
    else if c = '&' then
      let c := unescapeAt s.mem src
      unescapeLoop rounds (s.put c (if c ≠ '&' then src + 3 else src))
    else unescapeLoop rounds (s.put c src)

/-- `FAT_Unescape`: the length, the memory and the stores. -/
def fatUnescape (rounds path : Nat) (mem : Cells Char) :
    Option (Nat × Cells Char × List (Nat × Nat)) :=
  (unescapeLoop rounds { mem := mem, src := path, dst := path, copied := [] }).map fun s =>
    (s.dst - path, s.mem, s.copied)

/-! ## Escaping -/

/-- The characters of the table are escaped. -/
theorem escapeChar_special : ∀ e ∈ fatEscapes.table, escapeChar e.1 = '&' :: e.2 := by decide

/-- `__FAT_EscapeChar` encodes by the table. -/
theorem escapeChar_eq (c : Char) : escapeChar c = fatEscapes.encodeChar c := by
  rcases Escapes.encodeChar_cases fatEscapes c with ⟨e, inside, rfl, written⟩ | ⟨other, written⟩
  · rw [written]
    exact escapeChar_special e inside
  · have others : '"' ≠ c ∧ '*' ≠ c ∧ ':' ≠ c ∧ '<' ≠ c ∧ '>' ≠ c ∧ '?' ≠ c ∧ '|' ≠ c := by
      simpa [fatEscapes] using other
    obtain ⟨quote, star, colon, less, greater, mark, bar⟩ := others
    rw [written, escapeChar, if_neg quote.symm, if_neg star.symm, if_neg colon.symm,
      if_neg less.symm, if_neg greater.symm, if_neg mark.symm, if_neg bar.symm]

/-- `FAT_Escape` writes the code. -/
theorem fatEscape_eq (s : Path) : fatEscape s = fatEscapes.encode s := by
  rw [fatEscape, Escapes.encode, funext escapeChar_eq]

/-! ## Unescaping in place -/

/-- The string `t` and its NUL are what is read from `src` on. -/
structure Reads (mem : Cells Char) (src : Nat) (t : Path) : Prop where
  window : mem.window src (t.length + 1) = t ++ [nul]
  inside : nul ∉ t

namespace Reads

variable {mem : Cells Char} {src : Nat} {t : Path}

/-- A cell of a text, or its terminator. -/
theorem cell (reads : Reads mem src t) {i : Nat} (le : i ≤ t.length) :
    (t ++ [nul])[i]? = some (mem (src + i)) := by
  have getElem := congrArg (fun l => l[i]?) reads.window
  simp only [Cells.window, List.getElem?_map, List.getElem?_range (show i < t.length + 1 by omega),
    Option.map_some] at getElem
  exact getElem.symm

/-- Behind the first character. -/
theorem tail {c : Char} (reads : Reads mem src (c :: t)) : Reads mem (src + 1) t := by
  refine ⟨?_, fun mem => reads.inside (List.mem_cons_of_mem c mem)⟩
  have split := Cells.window_append mem src 1 (t.length + 1)
  rw [Nat.add_comm 1, show t.length + 1 + 1 = (c :: t).length + 1 from rfl, reads.window,
    List.cons_append] at split
  exact (List.cons.inj split).2

/-- The rest of a text. -/
theorem drop (reads : Reads mem src t) (count : Nat) (le : count ≤ t.length) :
    Reads mem (src + count) (t.drop count) := by
  induction count generalizing src t with
  | zero => simpa using reads
  | succ count ih =>
    cases t with
    | nil => simp at le
    | cons c t =>
      have further := ih reads.tail (Nat.le_of_succ_le_succ le)
      rwa [Nat.add_assoc, Nat.add_comm 1] at further

/-- A store in front of the string. -/
theorem write (reads : Reads mem src t) {dst : Nat} (before : dst < src) (c : Char) :
    Reads (mem.write dst c) src t := by
  refine ⟨?_, reads.inside⟩
  rw [← reads.window]
  exact Cells.window_congr fun i _ => Cells.write_other mem c (by omega)

/-- A sequence is matched where the string goes on with it. -/
theorem matchesAt_eq (reads : Reads mem src t) {seq : Path} (length : seq.length = 3)
    (inside : nul ∉ seq) : matchesAt mem src seq = seq.isPrefixOf t := by
  rw [matchesAt, Bool.eq_iff_iff, decide_eq_true_iff, List.isPrefixOf_iff_prefix]
  by_cases long : 3 ≤ t.length
  · have start : mem.window src 3 <+: t ++ [nul] :=
      reads.window ▸ Cells.window_prefix mem src (by omega)
    have start' : mem.window src 3 = t.take 3 := by
      rw [List.prefix_iff_eq_take.1 start, Cells.window_length,
        List.take_append_of_le_length long]
    rw [start', List.prefix_iff_eq_take, length, eq_comm]
  · have short : ¬ seq <+: t := fun start => long (length ▸ start.length_le)
    refine iff_of_false (fun same => ?_) short
    have found : mem (src + t.length) = nul := by
      simpa using (reads.cell (Nat.le_refl _)).symm
    refine inside (same ▸ List.mem_map.2 ⟨t.length, ?_, found⟩)
    exact List.mem_range.2 (by omega)

/-- The chain of comparisons looks the sequence up. -/
theorem unescapeAt_eq (reads : Reads mem src t) :
    unescapeAt mem src = ((fatEscapes.decodeAt t).map Prod.fst).getD '&' := by
  have matched : ∀ e ∈ fatEscapes.table, matchesAt mem src e.2 = e.2.isPrefixOf t := by
    intro e inside
    have shape : ∀ e ∈ fatEscapes.table, e.2.length = 3 ∧ nul ∉ e.2 := by decide
    exact reads.matchesAt_eq (shape e inside).1 (shape e inside).2
  rw [Escapes.decodeAt, ← List.find?_congr matched]
  simp only [unescapeAt, fatEscapes, List.find?_cons, List.find?_nil]
  cases matchesAt mem src "qt;".toList
  case true => rfl
  cases matchesAt mem src "st;".toList
  case true => rfl
  cases matchesAt mem src "cl;".toList
  case true => rfl
  cases matchesAt mem src "lt;".toList
  case true => rfl
  cases matchesAt mem src "gt;".toList
  case true => rfl
  cases matchesAt mem src "qm;".toList
  case true => rfl
  cases matchesAt mem src "vb;".toList
  case true => rfl
  rfl

end Reads

/-- What is left behind by the loop that reads `t` from state `s` on. -/
structure Unescaped (t : Path) (s s' : Unescaping) : Prop where
  mem : s'.mem = s.mem.overlay s.dst (fatEscapes.decode t ++ [nul])
  dst : s'.dst = s.dst + (fatEscapes.decode t).length
  copied : ∃ more, s'.copied = s.copied ++ more ∧ ∀ store ∈ more, store.1 < store.2

/-- A character in front of others. -/
theorem write_overlay (mem : Cells Char) (dst : Nat) (c : Char) (values : Path) :
    (mem.write dst c).overlay (dst + 1) values = mem.overlay dst (c :: values) := by
  have single := Cells.overlay_snoc mem dst [] c
  rw [Cells.overlay_nil, List.length_nil, Nat.add_zero, List.nil_append] at single
  rw [single]
  exact Cells.overlay_append mem dst [c] values

/-- One round writes one character. -/
theorem Unescaped.put {c : Char} {t t' : Path} {src : Nat} {s s' : Unescaping}
    (reads : fatEscapes.decode t = c :: fatEscapes.decode t') (behind : s.dst < src)
    (rest : Unescaped t' (s.put c src) s') : Unescaped t s s' where
  mem := by
    rw [rest.mem, reads]
    exact write_overlay s.mem s.dst c _
  dst := by
    rw [rest.dst, reads, List.length_cons, Unescaping.put_dst]
    omega
  copied := by
    obtain ⟨more, copied, behind'⟩ := rest.copied
    refine ⟨(s.dst, src) :: more, ?_, List.forall_mem_cons.2 ⟨behind, behind'⟩⟩
    rw [copied, Unescaping.put_copied, List.append_assoc, List.singleton_append]

/-- The loop reads the code, writes the string from `dst` on, and never ahead of `src`. -/
theorem unescapeLoop_reads (t : Path) {rounds : Nat} (enough : t.length < rounds)
    {s : Unescaping} (reads : Reads s.mem s.src t) (behind : s.dst ≤ s.src) :
    ∃ s', unescapeLoop rounds s = some s' ∧ Unescaped t s s' := by
  induction rounds generalizing t s with
  | zero => omega
  | succ rounds ih =>
    cases t with
    | nil =>
      have here : s.mem s.src = nul := Option.some.inj (reads.cell (Nat.zero_le _)).symm
      refine ⟨_, by rw [unescapeLoop, here]; exact if_pos rfl, ?_, ?_, ?_⟩
      · rw [Escapes.decode, List.nil_append, ← write_overlay, Cells.overlay_nil]
      · rw [Escapes.decode]
        rfl
      · exact ⟨_, rfl, by simpa using Nat.lt_succ_of_le behind⟩
    | cons c t =>
      have visible : c ≠ nul := fun same => reads.inside (same ▸ List.mem_cons_self)
      have rest : t.length < rounds := Nat.lt_of_succ_lt_succ enough
      have here : s.mem s.src = c := Option.some.inj (reads.cell (Nat.zero_le _)).symm
      simp only [unescapeLoop, here, if_neg visible]
      by_cases introducer : c = '&'
      · subst introducer
        rw [if_pos rfl, reads.tail.unescapeAt_eq]
        cases found : fatEscapes.decodeAt t with
        | some e =>
          obtain ⟨inside, start⟩ := Escapes.decodeAt_some found
          have three : e.2.length = 3 := by
            have shape : ∀ e ∈ fatEscapes.table, e.2.length = 3 := by decide
            exact shape e inside
          have long : 3 ≤ t.length := three ▸ start.length_le
          have value : e.1 ≠ '&' := (fatEscapes.introducer_free e inside).1
          rw [Option.map_some, Option.getD_some, if_pos value]
          obtain ⟨s', run, unescaped⟩ := ih (t.drop 3) (by rw [List.length_drop]; omega)
            (s := s.put e.1 (s.src + 1 + 3))
            ((reads.tail.drop 3 long).write (by omega) e.1)
            (by simp only [Unescaping.put_dst, Unescaping.put_src]; omega)
          refine ⟨s', run, unescaped.put ?_ (by omega)⟩
          rw [← three]
          exact Escapes.decode_introducer_some found
        | none =>
          rw [Option.map_none, Option.getD_none, if_neg (not_not.2 rfl)]
          obtain ⟨s', run, unescaped⟩ := ih t rest (s := s.put '&' (s.src + 1))
            (reads.tail.write (by omega) '&') (Nat.succ_le_succ behind)
          exact ⟨s', run, unescaped.put (Escapes.decode_introducer_none found) (by omega)⟩
      · rw [if_neg introducer]
        obtain ⟨s', run, unescaped⟩ := ih t rest (s := s.put c (s.src + 1))
          (reads.tail.write (by omega) c) (Nat.succ_le_succ behind)
        exact ⟨s', run, unescaped.put (Escapes.decode_literal introducer t) (by omega)⟩

/-! ## Round trips -/

/-- The characters that are invalid on FAT. -/
def invalidChars : List Char := ['"', '*', ':', '<', '>', '?', '|']

/-- The sequences that stand for them. -/
def sequences : List Path :=
  ["&qt;".toList, "&st;".toList, "&cl;".toList, "&lt;".toList, "&gt;".toList, "&qm;".toList,
    "&vb;".toList]

/-- A text needs no escapes if it has none of the characters. -/
theorem literal_iff (s : Path) : fatEscapes.Literal s ↔ ∀ c ∈ invalidChars, c ∉ s := by
  simp [Escapes.Literal, fatEscapes, invalidChars]

/-- A text has no escapes if it has none of the sequences. -/
theorem plain_iff (s : Path) : fatEscapes.Plain s ↔ ∀ seq ∈ sequences, ¬ seq <:+: s := by
  have same : sequences = fatEscapes.table.map fun e => '&' :: e.2 := by decide
  rw [same, List.forall_mem_map]
  exact Iff.rfl

/-- Unescaping what is at `path` ends, and does not store ahead of what it reads or outside of the
string. -/
def InPlace (t : Path) : Prop :=
  ∀ mem path rounds, t.length < rounds → Reads mem path t → ∃ len mem' stores,
    fatUnescape rounds path mem = some (len, mem', stores) ∧
      (∀ store ∈ stores, store.1 < store.2) ∧
      ∀ i, i < path ∨ path + t.length < i → mem' i = mem i

/-- Unescaping an escaped name gives the name and its length. -/
def ReadBack (s : Path) : Prop :=
  ∀ mem path rounds, (fatEscape s).length < rounds → Reads mem path (fatEscape s) →
    ∃ mem' stores, fatUnescape rounds path mem = some (s.length, mem', stores) ∧
      Reads mem' path s

/-- What `FAT_Unescape` makes of the string at `path`. -/
theorem fatUnescape_reads {mem : Cells Char} {path rounds : Nat} {t : Path}
    (enough : t.length < rounds) (reads : Reads mem path t) :
    ∃ stores, fatUnescape rounds path mem = some ((fatEscapes.decode t).length,
        mem.overlay path (fatEscapes.decode t ++ [nul]), stores) ∧
      ∀ store ∈ stores, store.1 < store.2 := by
  obtain ⟨s', run, unescaped⟩ := unescapeLoop_reads t enough
    (s := { mem := mem, src := path, dst := path, copied := [] }) reads (Nat.le_refl path)
  obtain ⟨more, copied, behind⟩ := unescaped.copied
  rw [List.nil_append] at copied
  refine ⟨more, ?_, behind⟩
  rw [fatUnescape, run, Option.map_some, unescaped.dst, unescaped.mem, copied,
    Nat.add_sub_cancel_left]

/-- `FAT_Unescape` works in place. -/
theorem fatUnescape_inPlace (t : Path) : InPlace t := by
  intro mem path rounds enough reads
  obtain ⟨stores, run, behind⟩ := fatUnescape_reads enough reads
  refine ⟨_, _, stores, run, behind, fun i outside => Cells.overlay_outside _ _ _ ?_⟩
  have short := @Escapes.length_decode_le _ _ fatEscapes t
  rw [List.length_append, List.length_singleton]
  omega

/-- Characters come from the sequences or from the string. -/
theorem nul_not_mem_encode {s : Path} (string : nul ∉ s) : nul ∉ fatEscapes.encode s := by
  intro inside
  obtain ⟨c, here, inside⟩ := List.mem_flatMap.1 inside
  rcases Escapes.encodeChar_cases fatEscapes c with ⟨e, entry, -, written⟩ | ⟨-, written⟩
  · have shape : ∀ e ∈ fatEscapes.table, nul ∉ '&' :: e.2 := by decide
    exact shape e entry (written ▸ inside)
  · rw [written, List.mem_singleton] at inside
    exact string (inside ▸ here)

/-- A text that was laid over the memory is read back. -/
theorem reads_overlay (mem : Cells Char) (path : Nat) {s : Path} (string : nul ∉ s) :
    Reads (mem.overlay path (s ++ [nul])) path s where
  window := by
    have whole := Cells.window_overlay mem path (s ++ [nul])
    rwa [List.length_append, List.length_singleton] at whole
  inside := string

/-- A name is read back exactly if it spells no sequence. -/
theorem readBack_iff {s : Path} (string : nul ∉ s) : ReadBack s ↔ fatEscapes.Plain s := by
  rw [← Escapes.decode_encode_iff, ReadBack, fatEscape_eq]
  constructor
  · intro readBack
    have reads := reads_overlay (fun _ => nul) 0 (nul_not_mem_encode string)
    obtain ⟨mem', stores, run, found⟩ := readBack _ 0 _ (Nat.lt_succ_self _) reads
    obtain ⟨stores', run', -⟩ := fatUnescape_reads (Nat.lt_succ_self _) reads
    rw [run', Option.some.injEq, Prod.mk.injEq, Prod.mk.injEq] at run
    obtain ⟨length, rfl, -⟩ := run
    have window := found.window
    rw [← length] at window
    have decoded := Cells.window_overlay (Cells.overlay (fun _ => nul) 0
      (fatEscapes.encode s ++ [nul])) 0 (fatEscapes.decode (fatEscapes.encode s) ++ [nul])
    rw [List.length_append, List.length_singleton, window] at decoded
    exact (List.append_cancel_right decoded).symm
  · intro same mem path rounds enough reads
    obtain ⟨stores, run, -⟩ := fatUnescape_reads enough reads
    rw [same] at run
    exact ⟨_, stores, run, reads_overlay mem path string⟩

/-- No other name has the same FAT name exactly if the name has no sequence and no character
that is escaped. -/
theorem unique_iff {s : Path} (string : nul ∉ s) :
    (∀ t, nul ∉ t → fatEscape t = fatEscape s → t = s) ↔
      fatEscapes.Plain s ∧ fatEscapes.Literal s := by
  constructor
  · intro unique
    by_contra special
    obtain ⟨t, other, same, made⟩ := Escapes.exists_twin special
    refine other (unique t (fun inside => ?_) (by rw [fatEscape_eq, fatEscape_eq, same]))
    rcases made nul inside with here | ⟨e, entry, here⟩
    · exact string here
    · have shape : ∀ e ∈ fatEscapes.table, nul ∉ e.1 :: '&' :: e.2 := by decide
      exact shape e entry here
  · rintro ⟨plain, literal⟩ t - same
    rw [fatEscape_eq, fatEscape_eq] at same
    exact Escapes.eq_of_encode_eq plain literal same

/-- The FAT name of a name holds no invalid character, unescaping works in place, a name is read
back exactly if it spells none of the sequences, and no other name has its FAT name exactly if
it also holds no character that is escaped. -/
theorem fatEscape_roundTrip (s : Path) (string : nul ∉ s) :
    (∀ c ∈ invalidChars, c ∉ fatEscape s) ∧
      (ReadBack s ↔ ∀ seq ∈ sequences, ¬ seq <:+: s) ∧
      ((∀ t, nul ∉ t → fatEscape t = fatEscape s → t = s) ↔
        (∀ seq ∈ sequences, ¬ seq <:+: s) ∧ ∀ c ∈ invalidChars, c ∉ s) ∧
      InPlace s := by
  rw [readBack_iff string, unique_iff string, plain_iff, literal_iff, fatEscape_eq,
    ← literal_iff (fatEscapes.encode s)]
  exact ⟨Escapes.literal_encode s, Iff.rfl, Iff.rfl, fatUnescape_inPlace s⟩

/-- A name with a colon is read back. -/
theorem fatEscape_roundTrip_colon : nul ∉ "/tmp/a:b&".toList ∧ ReadBack "/tmp/a:b&".toList :=
  ⟨by decide, (fatEscape_roundTrip "/tmp/a:b&".toList (by decide)).2.1.2 (by decide)⟩

/-- The name `&qt;` is not read back, and has the FAT name of a double quote. -/
theorem sequence_lost :
    ¬ ReadBack "&qt;".toList ∧ "&qt;".toList ≠ "\"".toList ∧
      fatEscape "&qt;".toList = fatEscape "\"".toList := by
  refine ⟨fun readBack => ?_, by decide, by decide⟩
  have plain := (plain_iff _).1 ((readBack_iff (by decide)).1 readBack)
  exact plain "&qt;".toList (by decide) (List.infix_refl _)

end D2xCios.Fat
