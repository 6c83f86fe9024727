import D2xCios.FatFs.LongNames
import D2xCios.Lib.Scans

/-!
# The entries of a directory

A directory is a table of entries of 32 bytes, in use up to the first one that starts with 0.
`dir_find` and `dir_read` look through it entry by entry, and keep track of the long name whose
parts they have just seen: it is that of the next entry of a file if none of its parts is missing
and they are marked with the check sum of the short name. Here is what one entry does to that.
-/

namespace D2xCios.FatFs

open D2xCios.Lib

/-! ## The source -/

/-- `ord` and `sum` of the long name that is being looked at, and `lfn_idx`, where it starts. -/
structure LfnState where
  ord : UInt8
  sum : UInt8
  lfnIdx : Nat

/-- An entry without valid data: a deleted one or a volume label. -/
def Void (dir : Mem) : Prop :=
  dir 0 = 0xE5 ∨ dir 11 &&& 0x3F &&& 0x08 ≠ 0 ∧ dir 11 &&& 0x3F ≠ 0x0F

/-- An entry of a long name. -/
def IsLfn (dir : Mem) : Prop := dir 11 &&& 0x3F = 0x0F

/-- The short name of an entry. -/
def SameSfn (dir fn : Mem) : Prop := ∀ k < 11, dir k = fn k

instance (dir : Mem) : Decidable (Void dir) := inferInstanceAs (Decidable (_ ∨ _))

instance (dir : Mem) : Decidable (IsLfn dir) := inferInstanceAs (Decidable (_ = _))

instance (dir fn : Mem) : Decidable (SameSfn dir fn) := Nat.decidableBallLT 11 _

/-- The number of an entry of a long name, without the mark of the first one. -/
def lfnNumber (dir : Mem) : UInt8 := if dir 0 &&& 0x40 ≠ 0 then dir 0 &&& 0xBF else dir 0

/-- The first entry of a long name is where it starts. -/
def lfnStart (index : Nat) (dir : Mem) (st : LfnState) : LfnState :=
  if dir 0 &&& 0x40 ≠ 0 then ⟨dir 0 &&& 0xBF, dir 13, index⟩ else st

/-- The entry is the next one of a long name. -/
def Continues (dir : Mem) (st : LfnState) : Prop := lfnNumber dir = st.ord ∧ st.sum = dir 13

instance (dir : Mem) (st : LfnState) : Decidable (Continues dir st) :=
  inferInstanceAs (Decidable (_ ∧ _))

/-- An entry of a long name, which is `valid` if its characters are. -/
def lfnStep (index : Nat) (dir : Mem) (st : LfnState) (valid : Bool) : LfnState :=
  let st := lfnStart index dir st
  { st with ord := if Continues dir st ∧ valid then st.ord - 1 else 0xFF }

/-- The body of the loop of `dir_find`, with an entry that is in use: what is found there is where
the long name of the entry starts. -/
def findLook (fn : Mem) (lfn : Option (Cells WChar)) (index : Nat) (dir : Mem) (st : LfnState) :
    LfnState ⊕ Nat :=
  if Void dir then .inl { st with ord := 0xFF }
  else if IsLfn dir then
    match lfn with
    | none => .inl st
    | some lfn => .inl (lfnStep index dir st (cmpLfn lfn dir))
  else if st.ord = 0 ∧ st.sum = sumSfn dir then .inr st.lfnIdx
  else if fn 11 &&& 0x01 = 0 ∧ SameSfn dir fn then .inr 0xFFFF
  else .inl { st with ord := 0xFF, lfnIdx := 0xFFFF }

/-- The state of `dir_read`, with the long name. -/
structure ReadState extends LfnState where
  lfn : Cells WChar

/-- The body of the loop of `dir_read`, with an entry that is in use: what is found there is where
the long name of the entry starts, and what is in its buffer. -/
def readLook (index : Nat) (dir : Mem) (st : ReadState) : ReadState ⊕ Nat × Cells WChar :=
  if Void dir ∨ dir 0 = 0x2E then .inl { st with ord := 0xFF }
  else if IsLfn dir then
    let picked := pickLfn st.lfn dir
    .inl
      { toLfnState := lfnStep index dir st.toLfnState picked.2
        lfn := if Continues dir (lfnStart index dir st.toLfnState) then picked.1 else st.lfn }
  else .inr (if st.ord ≠ 0 ∨ st.sum ≠ sumSfn dir then 0xFFFF else st.lfnIdx, st.lfn)

/-! ## What is found -/

/-- The entries up to the end of the directory. -/
def inUse (es : List Mem) : List Mem := es.takeWhile fun e => e 0 ≠ 0

/-- What a loop starts with: there is no long name. -/
def noLfn : LfnState := ⟨0xFF, 0xFF, 0xFFFF⟩

/-- What `dir_find` finds in the entries: its place, and that of its long name. -/
def findEntry (fn : Mem) (lfn : Option (Cells WChar)) (es : List Mem) : Option (Nat × Nat) :=
  (scan (findLook fn lfn) 0 (inUse es) noLfn).getRight?

variable {fn : Mem} {lfn : Option (Cells WChar)} {e : Mem} {k : Nat} {st st' : LfnState}
  {es before after : List Mem}

/-- A void entry ends the long name in front of it. -/
theorem findLook_void (void : Void e) : findLook fn lfn k e st = .inl { st with ord := 0xFF } :=
  if_pos void

/-- An entry of a long name is compared with the name that is looked for. -/
theorem findLook_lfn (live : ¬ Void e) (isLfn : IsLfn e) (buf : Cells WChar) :
    findLook fn (some buf) k e st = .inl (lfnStep k e st (cmpLfn buf e)) := by
  unfold findLook
  rw [if_neg live, if_pos isLfn]

/-- Without a long name its entries are passed over. -/
theorem findLook_lfn_none (live : ¬ Void e) (isLfn : IsLfn e) :
    findLook fn none k e st = .inl st := by
  unfold findLook
  rw [if_neg live, if_pos isLfn]

/-- A short entry is found by the long name in front of it or by its short name. -/
theorem findLook_sfn (fn : Mem) (lfn : Option (Cells WChar)) (k : Nat) (st : LfnState)
    (live : ¬ Void e) (isSfn : ¬ IsLfn e) : findLook fn lfn k e st =
    if st.ord = 0 ∧ st.sum = sumSfn e then .inr st.lfnIdx
    else if fn 11 &&& 0x01 = 0 ∧ SameSfn e fn then .inr 0xFFFF
    else .inl { st with ord := 0xFF, lfnIdx := 0xFFFF } := by
  unfold findLook
  rw [if_neg live, if_neg isSfn]

/-- No entry is the next one once a part has been missing. -/
theorem Continues.ord_ne (continues : Continues e st) (later : ¬ e 0 &&& 0x40 ≠ 0) :
    st.ord ≠ 0xFF := by
  intro none
  have number := continues.1
  rw [lfnNumber, if_neg later, none] at number
  rw [number] at later
  exact later (by decide)

/-- Nothing is left of the long name in either state, or they are the same. -/
def Forgot (st st' : LfnState) : Prop := st = st' ∨ st.ord = 0xFF ∧ st'.ord = 0xFF

/-- Where a long name began is forgotten alike. -/
theorem lfnStep_forgot (forgot : Forgot st st') (valid : Bool) :
    Forgot (lfnStep k e st valid) (lfnStep k e st' valid) := by
  rcases forgot with rfl | ⟨none, none'⟩
  · exact .inl rfl
  · by_cases first : e 0 &&& 0x40 ≠ 0
    · refine .inl ?_
      rw [lfnStep, lfnStep, lfnStart, if_pos first, lfnStart, if_pos first]
    · have missing : ∀ {st : LfnState}, st.ord = 0xFF → (lfnStep k e st valid).ord = 0xFF := by
        intro st none
        rw [lfnStep, lfnStart, if_neg first]
        exact if_neg fun both => both.1.ord_ne first none
      exact .inr ⟨missing none, missing none'⟩

/-- It makes no difference to `dir_find` how there came to be no long name. -/
theorem findLook_forgot (forgot : Forgot st st') :
    (∃ next next', findLook fn lfn k e st = .inl next ∧ findLook fn lfn k e st' = .inl next' ∧
      Forgot next next') ∨
    ∃ found, findLook fn lfn k e st = .inr found ∧ findLook fn lfn k e st' = .inr found := by
  by_cases void : Void e
  · exact .inl ⟨_, _, findLook_void void, findLook_void void, .inr ⟨rfl, rfl⟩⟩
  · by_cases isLfn : IsLfn e
    · cases lfn with
      | none => exact .inl ⟨_, _, findLook_lfn_none void isLfn, findLook_lfn_none void isLfn,
        forgot⟩
      | some buf =>
        exact .inl ⟨_, _, findLook_lfn void isLfn buf, findLook_lfn void isLfn buf,
          lfnStep_forgot forgot _⟩
    · rw [findLook_sfn _ _ _ _ void isLfn, findLook_sfn _ _ _ _ void isLfn]
      rcases forgot with rfl | ⟨none, none'⟩
      · by_cases long : st.ord = 0 ∧ st.sum = sumSfn e
        · rw [if_pos long]
          exact .inr ⟨_, rfl, rfl⟩
        · rw [if_neg long]
          by_cases short : fn 11 &&& 0x01 = 0 ∧ SameSfn e fn
          · rw [if_pos short]
            exact .inr ⟨_, rfl, rfl⟩
          · rw [if_neg short]
            exact .inl ⟨_, _, rfl, rfl, .inl rfl⟩
      · have other : ∀ {st : LfnState}, st.ord = 0xFF → ¬ (st.ord = 0 ∧ st.sum = sumSfn e) :=
          fun none both => by
            rw [none] at both
            exact absurd both.1 (by decide)
        rw [if_neg (other none), if_neg (other none')]
        by_cases short : fn 11 &&& 0x01 = 0 ∧ SameSfn e fn
        · rw [if_pos short, if_pos short]
          exact .inr ⟨_, rfl, rfl⟩
        · rw [if_neg short, if_neg short]
          exact .inl ⟨_, _, rfl, rfl, .inr ⟨rfl, rfl⟩⟩

/-- What is found from one state on is found from the other one on. -/
theorem findScan_forgot (fn : Mem) (lfn : Option (Cells WChar)) (k : Nat) (es : List Mem)
    (forgot : Forgot st st') :
    (∃ next next', scan (findLook fn lfn) k es st = .inl next ∧
      scan (findLook fn lfn) k es st' = .inl next' ∧ Forgot next next') ∨
    ∃ place, scan (findLook fn lfn) k es st = .inr place ∧
      scan (findLook fn lfn) k es st' = .inr place :=
  scan_related (fun _ _ _ _ _ forgot => findLook_forgot forgot) forgot

/-- Entries without valid data end a long name. -/
theorem findScan_void (void : ∀ e ∈ es, Void e) (some : es ≠ []) :
    scan (findLook fn lfn) k es st = .inl { st with ord := 0xFF } := by
  induction es generalizing k st with
  | nil => exact absurd rfl some
  | cons e es ih =>
    rw [scan_next (findLook_void (void e List.mem_cons_self))]
    by_cases last : es = []
    · rw [last, scan_nil]
    · rw [ih (fun e member => void e (List.mem_cons_of_mem _ member)) last]

/-- An entry of a long name is passed over. -/
theorem findLook_passes (fn : Mem) (lfn : Option (Cells WChar)) (k : Nat) (st : LfnState)
    (live : ¬ Void e) (isLfn : IsLfn e) :
    ∃ next, findLook fn lfn k e st = .inl next := by
  cases lfn with
  | none => exact ⟨_, findLook_lfn_none live isLfn⟩
  | some buf => exact ⟨_, findLook_lfn live isLfn buf⟩

/-- Nothing is found in entries of long names and those without valid data. -/
theorem findScan_passes (fn : Mem) (lfn : Option (Cells WChar)) (k : Nat) (st : LfnState)
    (nameless : ∀ e ∈ es, Void e ∨ IsLfn e) :
    ∃ next, scan (findLook fn lfn) k es st = .inl next := by
  induction es generalizing k st with
  | nil => exact ⟨st, rfl⟩
  | cons e es ih =>
    obtain ⟨next, seen⟩ : ∃ next, findLook fn lfn k e st = .inl next := by
      by_cases void : Void e
      · exact ⟨_, findLook_void void⟩
      · exact findLook_passes fn lfn k st void ((nameless e List.mem_cons_self).resolve_left void)
    rw [scan_next seen]
    exact ih (k + 1) next fun e member => nameless e (List.mem_cons_of_mem _ member)

/-- Nothing is left of a long name behind the entry of a file. -/
theorem findLook_file (fn : Mem) (lfn : Option (Cells WChar)) (k : Nat) (st : LfnState)
    (live : ¬ Void e) (isSfn : ¬ IsLfn e) :
    (∃ lfnIdx, findLook fn lfn k e st = .inr lfnIdx) ∨
      ∃ next, findLook fn lfn k e st = .inl next ∧ next.ord = 0xFF := by
  rw [findLook_sfn fn lfn k st live isSfn]
  split
  · exact .inl ⟨_, rfl⟩
  · split
    · exact .inl ⟨_, rfl⟩
    · exact .inr ⟨_, rfl, rfl⟩

/-! ## Long names -/

/-- The entry with the number `ord` of a long name; the first one is that with the end of it. -/
structure LongEntry (sum : UInt8) (ord : Nat) (first : Bool) (e : Mem) : Prop where
  live : ¬ Void e
  isLfn : IsLfn e
  first_iff : e 0 &&& 0x40 ≠ 0 ↔ first = true
  number : (lfnNumber e).toNat = ord
  sum : e 13 = sum
  padded : Padded (lfnChars e)

/-- The entries of a long name from the first one on, numbered down to `p + 1`. -/
inductive LongRun (sum : UInt8) : (p : Nat) → List Mem → Prop
  | first {p : Nat} {e : Mem} (entry : LongEntry sum (p + 1) true e) : LongRun sum p [e]
  | next {p : Nat} {segs : List Mem} {e : Mem} (run : LongRun sum (p + 1) segs)
      (entry : LongEntry sum (p + 1) false e) : LongRun sum p (segs ++ [e])

/-- The characters in the entries of a long name. -/
def textOf (segs : List Mem) : List WChar := segs.reverse.flatMap lfnChars

/-- The long name in some entries. -/
def nameOf (segs : List Mem) : List WChar := upToEnd (textOf segs)

variable {valid : Mem → Bool} {segs : List Mem} {sum : UInt8} {p ord : Nat} {first : Bool}

/-- One entry has its own characters. -/
theorem textOf_single (e : Mem) : textOf [e] = lfnChars e := List.append_nil _

/-- The entry in front of a short name has the first characters. -/
theorem textOf_snoc (segs : List Mem) (e : Mem) :
    textOf (segs ++ [e]) = lfnChars e ++ textOf segs := by
  rw [textOf, List.reverse_append, List.reverse_singleton, List.singleton_append,
    List.flatMap_cons, textOf]

theorem LongRun.ne_nil (run : LongRun sum p segs) : segs ≠ [] := by
  cases run with
  | first => exact List.cons_ne_nil _ _
  | next => exact List.append_ne_nil_of_right_ne_nil _ (List.cons_ne_nil _ _)

/-- All entries of a long name are live ones. -/
theorem LongRun.live (run : LongRun sum p segs) : ∀ e ∈ segs, ¬ Void e ∧ IsLfn e := by
  induction run with
  | first entry => exact List.forall_mem_singleton.2 ⟨entry.live, entry.isLfn⟩
  | next run entry ih =>
    exact List.forall_mem_append.2 ⟨ih, List.forall_mem_singleton.2 ⟨entry.live, entry.isLfn⟩⟩

/-- The last one of some entries of a long name. -/
theorem LongRun.of_concat (run : LongRun sum p (segs ++ [e])) :
    segs = [] ∧ LongEntry sum (p + 1) true e ∨
      LongRun sum (p + 1) segs ∧ LongEntry sum (p + 1) false e := by
  generalize whole : segs ++ [e] = all at run
  cases run with
  | first entry =>
    obtain ⟨rfl, same⟩ := List.append_inj' (whole.trans (List.nil_append _).symm) rfl
    obtain rfl := List.singleton_inj.1 same
    exact .inl ⟨rfl, entry⟩
  | next run entry =>
    obtain ⟨rfl, same⟩ := List.append_inj' whole rfl
    obtain rfl := List.singleton_inj.1 same
    exact .inr ⟨run, entry⟩

/-- What a loop knows in front of the entry `k`: the entries before it that belong to a long name,
with characters that are valid, and how many are missing. -/
structure Tracks (valid : Mem → Bool) (es : List Mem) (k : Nat) (st : LfnState) : Prop where
  known : st.ord ≠ 0xFF → ∃ segs, segs <:+ es.take k ∧ st.lfnIdx + segs.length = k ∧
    LongRun st.sum st.ord.toNat segs ∧ ∀ e ∈ segs, valid e = true
  all : ∀ segs sum p, segs <:+ es.take k → LongRun sum p segs → (∀ e ∈ segs, valid e = true) →
    st.sum = sum ∧ st.ord.toNat = p ∧ st.lfnIdx + segs.length = k

/-- In front of the first entry there is no long name. -/
theorem Tracks.start (none : st.ord = 0xFF) : Tracks valid es 0 st where
  known some := absurd none some
  all segs sum p suffix run := by
    rw [List.take_zero, List.suffix_nil] at suffix
    exact absurd suffix run.ne_nil

/-- Behind another entry there is none. -/
theorem Tracks.behind (k_lt : k < es.length)
    (other : ¬ Void es[k] → IsLfn es[k] → valid es[k] ≠ true) (none : st.ord = 0xFF) :
    Tracks valid es (k + 1) st where
  known some := absurd none some
  all segs sum p suffix run oks := by
    rw [List.take_succ_eq_append_getElem k_lt, List.suffix_concat_iff] at suffix
    rcases suffix with empty | ⟨rest, rfl, -⟩
    · exact absurd empty run.ne_nil
    · have member : es[k] ∈ rest ++ [es[k]] := List.mem_append_right _ List.mem_cons_self
      obtain ⟨live, isLfn⟩ := run.live es[k] member
      exact absurd (oks es[k] member) (other live isLfn)

/-- The number in front of a number. -/
theorem toNat_pred : ∀ b : UInt8, b ≠ 0 → (b - 1).toNat + 1 = b.toNat := by
  intro b some
  have positive : 1 ≤ b.toNat := Nat.pos_of_ne_zero fun zero => some (UInt8.toNat_inj.1 zero)
  have one : (1 : UInt8) ≤ b := UInt8.le_iff_toNat_le.2 positive
  rw [UInt8.toNat_sub_of_le _ _ one]
  exact Nat.sub_add_cancel positive

/-- Behind an entry of a long name. -/
theorem Tracks.step (pads : ∀ e, valid e = true → Padded (lfnChars e))
    (counts : ∀ e, valid e = true → lfnNumber e ≠ 0) (tracks : Tracks valid es k st)
    (k_lt : k < es.length) (live : ¬ Void es[k]) (isLfn : IsLfn es[k]) :
    Tracks valid es (k + 1) (lfnStep k es[k] st (valid es[k])) := by
  have entry (first : Bool) (marked : es[k] 0 &&& 0x40 ≠ 0 ↔ first = true)
      (ok : valid es[k] = true) :
      LongEntry (es[k] 13) ((lfnNumber es[k] - 1).toNat + 1) first es[k] :=
    ⟨live, isLfn, marked, (toNat_pred _ (counts _ ok)).symm, rfl, pads _ ok⟩
  have last {segs : List Mem} (suffix : segs <:+ es.take (k + 1)) (some : segs ≠ []) :
      ∃ rest, segs = rest ++ [es[k]] ∧ rest <:+ es.take k := by
    rw [List.take_succ_eq_append_getElem k_lt, List.suffix_concat_iff] at suffix
    exact suffix.resolve_left some
  have here {rest : List Mem} (before : rest <:+ es.take k) :
      rest ++ [es[k]] <:+ es.take (k + 1) := by
    rw [List.take_succ_eq_append_getElem k_lt, List.suffix_append_self_iff]
    exact before
  have whole {rest : List Mem} (oks : ∀ e ∈ rest ++ [es[k]], valid e = true) :
      (∀ e ∈ rest, valid e = true) ∧ valid es[k] = true := by
    rwa [List.forall_mem_append, List.forall_mem_singleton] at oks
  -- the state behind the entry, if that is the next one and its characters are valid
  have goes {start : LfnState} (begins : lfnStart k es[k] st = start)
      (continues : Continues es[k] start) : lfnStep k es[k] st (valid es[k]) =
        { start with ord := if valid es[k] = true then lfnNumber es[k] - 1 else 0xFF } := by
    rw [lfnStep, begins, ← continues.1]
    simp only [continues, true_and]
  have valid_of {a : UInt8} (some : (if valid es[k] = true then a else 0xFF) ≠ (0xFF : UInt8)) :
      valid es[k] = true := by
    by_contra bad
    exact some (if_neg bad)
  by_cases marked : es[k] 0 &&& 0x40 ≠ 0
  · have begins : lfnStart k es[k] st = ⟨lfnNumber es[k], es[k] 13, k⟩ := by
      rw [lfnStart, if_pos marked, lfnNumber, if_pos marked]
    rw [goes begins ⟨rfl, rfl⟩]
    refine ⟨fun some => ?_, fun segs sum p suffix run oks => ?_⟩
    · have ok := valid_of some
      simp only [if_pos ok]
      exact ⟨[es[k]], here List.nil_suffix, rfl, .first (entry true (iff_of_true marked rfl) ok),
        List.forall_mem_singleton.2 ok⟩
    · obtain ⟨rest, rfl, -⟩ := last suffix run.ne_nil
      have ok := (whole oks).2
      simp only [if_pos ok]
      rcases run.of_concat with ⟨rfl, first⟩ | ⟨-, later⟩
      · refine ⟨first.sum, Nat.succ.inj ?_, rfl⟩
        exact (toNat_pred _ (counts _ ok)).trans first.number
      · exact absurd (later.first_iff.1 marked) Bool.false_ne_true
  · have begins : lfnStart k es[k] st = st := if_neg marked
    refine ⟨fun some => ?_, fun segs sum p suffix run oks => ?_⟩
    · have continues : Continues es[k] st := by
        by_contra bad
        refine some ?_
        rw [lfnStep, begins]
        exact if_neg fun both => bad both.1
      rw [goes begins continues] at some ⊢
      have ok := valid_of some
      simp only [if_pos ok]
      obtain ⟨segs, suffix, place, run, oks⟩ := tracks.known (continues.ord_ne marked)
      have later := entry false (iff_of_false marked Bool.false_ne_true) ok
      rw [← continues.2] at later
      rw [← continues.1, ← toNat_pred _ (counts _ ok)] at run
      refine ⟨segs ++ [es[k]], here suffix, ?_, run.next later,
        List.forall_mem_append.2 ⟨oks, List.forall_mem_singleton.2 ok⟩⟩
      rw [List.length_append, List.length_singleton, ← Nat.add_assoc, place]
    · obtain ⟨rest, rfl, before⟩ := last suffix run.ne_nil
      obtain ⟨oks', ok⟩ := whole oks
      rcases run.of_concat with ⟨-, first⟩ | ⟨run', later⟩
      · exact absurd (first.first_iff.2 rfl) marked
      · obtain ⟨same, number, place⟩ := tracks.all rest sum (p + 1) before run' oks'
        have continues : Continues es[k] st :=
          ⟨UInt8.toNat_inj.1 (later.number.trans number.symm), same.trans later.sum.symm⟩
        rw [goes begins continues]
        simp only [if_pos ok]
        refine ⟨same, Nat.succ.inj ?_, ?_⟩
        · exact (toNat_pred _ (counts _ ok)).trans later.number
        · rw [List.length_append, List.length_singleton, ← Nat.add_assoc, place]

/-! ## Places of the characters -/

/-- The number of an entry is what is left of its first byte without the marks. -/
theorem number_table : ∀ n < 256, (fun b number : UInt8 => b &&& 0xBF = number ∧
    (number.toNat < 64 → b &&& 0x3F = number)) (UInt8.ofNat n)
      (if UInt8.ofNat n &&& 0x40 ≠ 0 then UInt8.ofNat n &&& 0xBF else UInt8.ofNat n) := by
  decide +kernel

/-- `cmp_lfn` and `pick_lfn` mask the number of an entry in ways of their own. -/
theorem lfnNumber_bits (e : Mem) :
    e 0 &&& 0xBF = lfnNumber e ∧ ((lfnNumber e).toNat < 64 → e 0 &&& 0x3F = lfnNumber e) := by
  have bits := number_table (e 0).toNat (e 0).toNat_lt
  rw [UInt8.ofNat_toNat] at bits
  exact bits

theorem lfnOffset_pos {b : UInt8} (positive : 1 ≤ b.toNat) : lfnOffset b = 13 * (b.toNat - 1) := by
  have b_lt := b.toNat_lt
  unfold lfnOffset
  omega

/-- An entry's number gives the place of its characters. -/
theorem LongEntry.offset (entry : LongEntry sum (p + 1) first e) :
    lfnOffset (e 0 &&& 0xBF) = 13 * p ∧
      (p < 63 → lfnOffset (e 0 &&& 0x3F) = 13 * p) := by
  obtain ⟨find, read⟩ := lfnNumber_bits e
  have number := entry.number
  have place : lfnOffset (lfnNumber e) = 13 * p := by
    rw [lfnOffset_pos (by omega), number, Nat.add_sub_cancel]
  rw [find]
  exact ⟨place, fun small => by rw [read (by omega), place]⟩

/-! ## Comparing the entries of a name -/

variable {buf : Cells WChar} {name : List WChar}

/-- The entries that `dir_find` accepts for the name that it is given. -/
def accepts (lfn : Option (Cells WChar)) (e : Mem) : Bool := lfn.elim false (cmpLfn · e)

/-- The characters of an accepted entry end in the padding. -/
theorem accepts_padded (ok : accepts lfn e = true) : Padded (lfnChars e) := by
  cases lfn with
  | none => cases ok
  | some buf => exact (cmpLfn_iff.1 ok).1

/-- The number of an accepted entry is not 0. -/
theorem accepts_number (ok : accepts lfn e = true) : lfnNumber e ≠ 0 := by
  cases lfn with
  | none => cases ok
  | some buf =>
    have matched := (cmpLfn_iff.1 ok).2.1
    rw [(lfnNumber_bits e).1] at matched
    intro none
    rw [none] at matched
    exact absurd matched.1 (by decide)

/-- One entry more. -/
theorem Tracks.find (tracks : Tracks (accepts lfn) es k st) (k_lt : k < es.length) {next : LfnState}
    (look : findLook fn lfn k es[k] st = .inl next) : Tracks (accepts lfn) es (k + 1) next := by
  by_cases void : Void es[k]
  · rw [findLook_void void] at look
    exact .behind k_lt (fun live => absurd void live) (Sum.inl.inj look ▸ rfl)
  by_cases isLfn : IsLfn es[k]
  · cases lfn with
    | none =>
      rw [findLook_lfn_none void isLfn] at look
      obtain rfl := Sum.inl.inj look
      refine ⟨fun some => ?_, fun segs sum p _ run oks => ?_⟩
      · obtain ⟨segs, -, -, run, oks⟩ := tracks.known some
        obtain ⟨e, member⟩ := List.exists_mem_of_ne_nil segs run.ne_nil
        cases oks e member
      · obtain ⟨e, member⟩ := List.exists_mem_of_ne_nil segs run.ne_nil
        cases oks e member
    | some buf =>
      rw [findLook_lfn void isLfn buf] at look
      obtain rfl := Sum.inl.inj look
      exact tracks.step (fun _ => accepts_padded) (fun _ => accepts_number) k_lt void isLfn
  · rw [findLook_sfn _ _ _ _ void isLfn] at look
    refine .behind k_lt (fun _ lfn => absurd lfn isLfn) ?_
    split at look
    · cases look
    · split at look
      · cases look
      · exact Sum.inl.inj look ▸ rfl

/-- Only the first entry of the name has the end of it. -/
def Whole (segs : List Mem) : Prop := ∀ e ∈ segs, ¬ e 0 &&& 0x40 ≠ 0 → 0 ∉ lfnChars e

/-- The entries that `cmp_lfn` accepts have the characters that are in the buffer. -/
theorem LongRun.matches (run : LongRun sum p segs) (oks : ∀ e ∈ segs, cmpLfn buf e = true) :
    Matches buf (13 * p) (textOf segs) ∧
      (0 ∉ textOf segs → buf (13 * p + (textOf segs).length) = 0) := by
  induction run with
  | first entry =>
    obtain ⟨-, matched, ended⟩ := cmpLfn_iff.1 (oks _ List.mem_cons_self)
    rw [entry.offset.1] at matched ended
    rw [textOf_single, lfnChars_length]
    exact ⟨matched, ended (entry.first_iff.2 rfl)⟩
  | next run entry ih =>
    rw [List.forall_mem_append, List.forall_mem_singleton] at oks
    obtain ⟨matched, ended⟩ := ih oks.1
    obtain ⟨-, matched', -⟩ := cmpLfn_iff.1 oks.2
    rw [entry.offset.1] at matched'
    rw [textOf_snoc, matches_append, lfnChars_length, List.length_append, lfnChars_length,
      List.mem_append, not_or, ← Nat.add_assoc]
    exact ⟨⟨matched', fun _ => matched⟩, fun none => ended none.2⟩

/-- The other way round, if only the first one of the entries has the end of the name. -/
theorem LongRun.accepted (run : LongRun sum p segs) (whole : Whole segs)
    (matched : Matches buf (13 * p) (textOf segs))
    (ended : 0 ∉ textOf segs → buf (13 * p + (textOf segs).length) = 0) :
    ∀ e ∈ segs, cmpLfn buf e = true := by
  induction run with
  | first entry =>
    rw [textOf_single] at matched ended
    rw [lfnChars_length] at ended
    refine List.forall_mem_singleton.2 (cmpLfn_iff.2 ⟨entry.padded, ?_⟩)
    rw [entry.offset.1]
    exact ⟨matched, fun _ => ended⟩
  | next run entry ih =>
    obtain ⟨whole', last⟩ := List.forall_mem_append.1 whole
    have later : ¬ _ := fun marked => absurd (entry.first_iff.1 marked) Bool.false_ne_true
    have none := List.forall_mem_singleton.1 last later
    rw [textOf_snoc] at matched ended
    rw [matches_append, lfnChars_length] at matched
    rw [List.length_append, lfnChars_length, List.mem_append, not_or, ← Nat.add_assoc] at ended
    refine List.forall_mem_append.2 ⟨ih whole' (matched.2 none) fun rest => ended ⟨none, rest⟩,
      List.forall_mem_singleton.2 (cmpLfn_iff.2 ⟨entry.padded, ?_⟩)⟩
    rw [entry.offset.1]
    exact ⟨matched.1, fun marked => absurd marked later⟩

/-- The entries of a long name that `dir_find` accepts have that name, but for the case of its
characters. -/
theorem LongRun.named (run : LongRun sum 0 segs) (spells : Spells buf 0 name)
    (fits : name.length < 255) (oks : ∀ e ∈ segs, cmpLfn buf e = true) :
    (nameOf segs).map ffWtoupper = name.map ffWtoupper :=
  (matches_iff spells (by omega)).1 (run.matches oks)

/-- All entries of the name that is looked for compare equal. -/
theorem LongRun.found (run : LongRun sum 0 segs) (spells : Spells buf 0 name)
    (fits : name.length < 255) (whole : Whole segs)
    (same : (nameOf segs).map ffWtoupper = name.map ffWtoupper) :
    ∀ e ∈ segs, cmpLfn buf e = true := by
  obtain ⟨matched, ended⟩ := (matches_iff spells (show 0 + name.length < 255 by omega)).2 same
  exact run.accepted whole matched ended

end D2xCios.FatFs
