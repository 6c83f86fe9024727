import Mathlib.Data.List.Find
import Mathlib.Data.List.Infix

/-!
# Escape sequences

Some values of an alphabet are written as a sequence of others: an introducer and
what stands behind it. The introducer is written as it is when it stands for itself,
so that what looks like a sequence is read as one, wherever it comes from. A string
is read back unchanged exactly if it holds no sequence (`decode_encode_iff`), and is
the only one that is written as it is if it holds no value with a sequence either
(`eq_of_encode_eq`, `exists_twin`).
-/

namespace D2xCios.Lib

universe u

/-- The values that are escaped, each with what follows the introducer for it. No sequence
begins another one, and all that it is made of is written as it is. -/
structure Escapes (α : Type u) where
  introducer : α
  table : List (α × List α)
  nonempty : ∀ e ∈ table, e.2 ≠ []
  introducer_free : ∀ e ∈ table, e.1 ≠ introducer ∧ introducer ∉ e.2
  literal : ∀ e ∈ table, ∀ f ∈ table, f.1 ∉ e.2
  distinct : ∀ e ∈ table, ∀ f ∈ table, e.1 = f.1 → e = f
  unambiguous : ∀ e ∈ table, ∀ f ∈ table, e.2 <+: f.2 → e = f

namespace Escapes

variable {α : Type u} [DecidableEq α] (code : Escapes α)

/-- How a value is written. -/
def encodeChar (c : α) : List α :=
  match code.table.find? fun e => e.1 = c with
  | some e => code.introducer :: e.2
  | none => [c]

/-- How a string is written. -/
def encode (s : List α) : List α := s.flatMap code.encodeChar

/-- The sequence that goes on with `s` behind the introducer. -/
def decodeAt (s : List α) : Option (α × List α) := code.table.find? fun e => e.2.isPrefixOf s

/-- How a string is read. -/
def decode : List α → List α
  | [] => []
  | c :: s =>
    if c = code.introducer then
      match code.decodeAt s with
      | some e => e.1 :: decode (s.drop e.2.length)
      | none => c :: decode s
    else c :: decode s
termination_by s => s.length
decreasing_by
  all_goals simp only [List.length_drop, List.length_cons]
  all_goals omega

/-- The string holds no sequence. -/
def Plain (s : List α) : Prop := ∀ e ∈ code.table, ¬ code.introducer :: e.2 <:+: s

/-- The string holds no value that is escaped. -/
def Literal (s : List α) : Prop := ∀ e ∈ code.table, e.1 ∉ s

variable {code}

/-! ## Writing -/

/-- A character is escaped, or stays as it is. -/
theorem encodeChar_cases (code : Escapes α) (c : α) :
    (∃ e ∈ code.table, e.1 = c ∧ code.encodeChar c = code.introducer :: e.2) ∨
      (∀ e ∈ code.table, e.1 ≠ c) ∧ code.encodeChar c = [c] := by
  cases found : code.table.find? fun e => e.1 = c with
  | some e =>
    refine .inl ⟨e, List.mem_of_find?_eq_some found, ?_, by rw [encodeChar, found]⟩
    simpa using List.find?_some found
  | none =>
    refine .inr ⟨fun e inside => ?_, by rw [encodeChar, found]⟩
    simpa using List.find?_eq_none.1 found e inside

/-- A character of the table is escaped. -/
theorem encodeChar_special {e : α × List α} (inside : e ∈ code.table) :
    code.encodeChar e.1 = code.introducer :: e.2 := by
  rcases encodeChar_cases code e.1 with ⟨f, inside', same, written⟩ | ⟨other, -⟩
  · rw [written, code.distinct f inside' e inside same]
  · exact absurd rfl (other e inside)

@[simp] theorem encode_nil : code.encode [] = [] := rfl

/-- The first character is encoded by itself. -/
theorem encode_cons (c : α) (s : List α) :
    code.encode (c :: s) = code.encodeChar c ++ code.encode s := rfl

theorem encode_append (s t : List α) : code.encode (s ++ t) = code.encode s ++ code.encode t :=
  List.flatMap_append

/-- A string without escaped values is written as it is. -/
theorem Literal.encode_eq {s : List α} (literal : code.Literal s) : code.encode s = s := by
  induction s with
  | nil => rfl
  | cons c s ih =>
    rw [encode_cons, ih fun e inside mem => literal e inside (List.mem_cons_of_mem _ mem)]
    rcases encodeChar_cases code c with ⟨e, inside, same, -⟩ | ⟨-, single⟩
    · exact absurd (same ▸ List.mem_cons_self) (literal e inside)
    · rw [single, List.singleton_append]

/-- A sequence is written as it is. -/
theorem encode_sequence {e : α × List α} (inside : e ∈ code.table) :
    code.encode (code.introducer :: e.2) = code.introducer :: e.2 := by
  refine Literal.encode_eq fun f inside' mem => ?_
  rcases List.mem_cons.1 mem with same | mem
  · exact (code.introducer_free f inside').1 same
  · exact code.literal e inside f inside' mem

/-- No escaped value is written. -/
theorem literal_encode (s : List α) : code.Literal (code.encode s) := by
  intro e inside mem
  obtain ⟨c, -, mem⟩ := List.mem_flatMap.1 mem
  rcases encodeChar_cases code c with ⟨f, inside', -, written⟩ | ⟨unescaped, written⟩
  · rw [written] at mem
    rcases List.mem_cons.1 mem with same | mem
    · exact (code.introducer_free e inside).1 same
    · exact code.literal f inside' e inside mem
  · rw [written] at mem
    exact unescaped e inside (List.mem_singleton.1 mem)

/-- What begins with neither the introducer nor an escaped value is found in front of a
written string exactly if it is in front of the string itself. -/
theorem prefix_encode_iff {t : List α} (noIntroducer : code.introducer ∉ t)
    (literal : code.Literal t) (s : List α) : t <+: code.encode s ↔ t <+: s := by
  induction t generalizing s with
  | nil => simp
  | cons d t ih =>
    have noIntroducer' := fun mem => noIntroducer (List.mem_cons_of_mem d mem)
    have literal' : code.Literal t := fun e inside mem =>
      literal e inside (List.mem_cons_of_mem d mem)
    cases s with
    | nil => simp
    | cons c s =>
      rw [encode_cons]
      rcases encodeChar_cases code c with ⟨e, inside, same, written⟩ | ⟨-, written⟩
      · have other : d ≠ code.introducer := fun same => noIntroducer (same ▸ List.mem_cons_self)
        have other' : d ≠ c := fun same' =>
          literal e inside (same.trans same'.symm ▸ List.mem_cons_self)
        rw [written, List.cons_append, List.cons_prefix_cons, List.cons_prefix_cons]
        simp [other, other']
      · rw [written, List.singleton_append, List.cons_prefix_cons, List.cons_prefix_cons,
          ih noIntroducer' literal']

/-! ## Reading -/

/-- A sequence that is found is one of the table. -/
theorem decodeAt_some {s : List α} {e : α × List α} (found : code.decodeAt s = some e) :
    e ∈ code.table ∧ e.2 <+: s :=
  ⟨List.mem_of_find?_eq_some found, by simpa using List.find?_some found⟩

/-- No sequence is found if none of the table is there. -/
theorem decodeAt_none_iff (s : List α) :
    code.decodeAt s = none ↔ ∀ e ∈ code.table, ¬ e.2 <+: s := by
  simp only [decodeAt, List.find?_eq_none, List.isPrefixOf_iff_prefix]

/-- A sequence is recognized whatever follows. -/
theorem decodeAt_append {e : α × List α} (inside : e ∈ code.table) (rest : List α) :
    code.decodeAt (e.2 ++ rest) = some e := by
  cases found : code.decodeAt (e.2 ++ rest) with
  | none => exact absurd (List.prefix_append _ _) ((decodeAt_none_iff _).1 found e inside)
  | some f =>
    obtain ⟨inside', start⟩ := decodeAt_some found
    rcases List.prefix_or_prefix_of_prefix start (List.prefix_append e.2 rest) with first | first
    · rw [code.unambiguous f inside' e inside first]
    · rw [code.unambiguous e inside f inside' first]

/-- The same sequence goes on with a string and with what is written for it. -/
theorem decodeAt_encode (s : List α) : code.decodeAt (code.encode s) = code.decodeAt s := by
  refine List.find?_congr fun e inside => ?_
  rw [Bool.eq_iff_iff, List.isPrefixOf_iff_prefix, List.isPrefixOf_iff_prefix]
  exact prefix_encode_iff (code.introducer_free e inside).2
    (fun f inside' => code.literal e inside f inside') s

/-- A character other than the introducer stays. -/
theorem decode_literal {c : α} (other : c ≠ code.introducer) (s : List α) :
    code.decode (c :: s) = c :: code.decode s := by
  rw [decode, if_neg other]

/-- An introducer without a sequence stays. -/
theorem decode_introducer_none {s : List α} (none : code.decodeAt s = none) :
    code.decode (code.introducer :: s) = code.introducer :: code.decode s := by
  rw [decode, if_pos rfl, none]

/-- An introducer with a sequence stands for a character. -/
theorem decode_introducer_some {s : List α} {e : α × List α} (some : code.decodeAt s = some e) :
    code.decode (code.introducer :: s) = e.1 :: code.decode (s.drop e.2.length) := by
  rw [decode, if_pos rfl, some]

/-- The sequences of the table are decoded. -/
theorem decode_sequence {e : α × List α} (inside : e ∈ code.table) (rest : List α) :
    code.decode (code.introducer :: e.2 ++ rest) = e.1 :: code.decode rest := by
  rw [List.cons_append, decode_introducer_some (decodeAt_append inside rest), List.drop_left]

/-- Reading makes a string no longer. -/
theorem length_decode_le (s : List α) : (code.decode s).length ≤ s.length := by
  fun_induction code.decode s with
  | case1 => exact Nat.le_refl _
  | case2 s e found ih =>
    rw [List.length_drop] at ih
    simp only [List.length_cons]
    omega
  | case3 s found ih => exact Nat.succ_le_succ ih
  | case4 c s other ih => exact Nat.succ_le_succ ih

/-- What is read is in the string or has been written as a sequence. -/
theorem mem_decode {s : List α} {c : α} (read : c ∈ code.decode s) :
    c ∈ s ∨ ∃ e ∈ code.table, e.1 = c := by
  fun_induction code.decode s with
  | case1 => exact .inl read
  | case2 s e found ih =>
    rcases List.mem_cons.1 read with rfl | later
    · exact .inr ⟨e, (decodeAt_some found).1, rfl⟩
    · exact (ih later).imp_left fun inside => List.mem_cons_of_mem _ (List.mem_of_mem_drop inside)
  | case3 s found ih =>
    rcases List.mem_cons.1 read with rfl | later
    · exact .inl List.mem_cons_self
    · exact (ih later).imp_left (List.mem_cons_of_mem _)
  | case4 d s other ih =>
    rcases List.mem_cons.1 read with rfl | later
    · exact .inl List.mem_cons_self
    · exact (ih later).imp_left (List.mem_cons_of_mem _)

theorem decode_ne_nil {s : List α} (some : s ≠ []) : code.decode s ≠ [] := by
  fun_cases code.decode s with
  | case1 => exact absurd rfl some
  | _ => exact List.cons_ne_nil _ _

/-- Reading changes a string only if it makes a value of a sequence. -/
theorem decode_cases (s : List α) : code.decode s = s ∨ ∃ e ∈ code.table, e.1 ∈ code.decode s := by
  fun_induction code.decode s with
  | case1 => exact .inl rfl
  | case2 s e found ih => exact .inr ⟨e, (decodeAt_some found).1, List.mem_cons_self⟩
  | case3 s found ih =>
    exact ih.imp (congrArg _) fun ⟨e, inside, read⟩ => ⟨e, inside, List.mem_cons_of_mem _ read⟩
  | case4 c s other ih =>
    exact ih.imp (congrArg _) fun ⟨e, inside, read⟩ => ⟨e, inside, List.mem_cons_of_mem _ read⟩

/-! ## Round trips -/

/-- A text is plain if there is no escape at its first character or behind it. -/
theorem plain_cons_iff (c : α) (s : List α) :
    code.Plain (c :: s) ↔
      (c = code.introducer → code.decodeAt s = none) ∧ code.Plain s := by
  rw [decodeAt_none_iff]
  constructor
  · intro plain
    refine ⟨fun same e inside start => ?_, fun e inside part => ?_⟩
    · exact plain e inside
        (List.infix_cons_iff.2 (.inl (List.cons_prefix_cons.2 ⟨same.symm, start⟩)))
    · exact plain e inside (List.infix_cons_iff.2 (.inr part))
  · rintro ⟨first, plain⟩ e inside part
    rcases List.infix_cons_iff.1 part with start | part
    · obtain ⟨same, start⟩ := List.cons_prefix_cons.1 start
      exact first same.symm e inside start
    · exact plain e inside part

/-- A string is read back unchanged exactly if it holds no sequence. -/
theorem decode_encode_iff (s : List α) : code.decode (code.encode s) = s ↔ code.Plain s := by
  induction s with
  | nil => exact iff_of_true (by rw [encode_nil, decode]) fun e _ part => by simp at part
  | cons c s ih =>
    rw [plain_cons_iff, encode_cons]
    rcases encodeChar_cases code c with ⟨e, inside, same, written⟩ | ⟨-, written⟩
    · have other : c ≠ code.introducer := same ▸ (code.introducer_free e inside).1
      rw [written, decode_sequence inside, same, List.cons_inj_right, ih]
      simp [other]
    · rw [written, List.singleton_append]
      by_cases same : c = code.introducer
      · subst same
        cases found : code.decodeAt s with
        | none =>
          rw [decode_introducer_none ((decodeAt_encode s).trans found), List.cons_inj_right, ih]
          simp
        | some e =>
          have other := (code.introducer_free e (decodeAt_some found).1).1
          rw [decode_introducer_some ((decodeAt_encode s).trans found)]
          simp [other]
      · rw [decode_literal same, List.cons_inj_right, ih]
        simp [same]

/-- A string without values is not changed by reading exactly if it holds no sequence. -/
theorem Literal.decode_iff {s : List α} (literal : code.Literal s) :
    code.decode s = s ↔ code.Plain s := by
  rw [← decode_encode_iff, literal.encode_eq]

/-- A string that holds a sequence or an escaped value is written as another one is, which is
made of its values and those of one sequence. -/
theorem exists_twin {s : List α} (special : ¬ (code.Plain s ∧ code.Literal s)) :
    ∃ t, t ≠ s ∧ code.encode t = code.encode s ∧
      ∀ c ∈ t, c ∈ s ∨ ∃ e ∈ code.table, c ∈ e.1 :: code.introducer :: e.2 := by
  rw [not_and_or] at special
  rcases special with sequence | value
  · -- the value stands for its sequence
    simp only [Plain, not_forall, not_not] at sequence
    obtain ⟨e, inside, a, b, rfl⟩ := sequence
    refine ⟨a ++ e.1 :: b, fun same => ?_, ?_, fun c mem => ?_⟩
    · have lengths := congrArg List.length same
      have longer := List.length_pos_of_ne_nil (code.nonempty e inside)
      simp only [List.length_append, List.length_cons] at lengths
      omega
    · rw [encode_append, encode_cons, encodeChar_special inside, encode_append, encode_append,
        encode_sequence inside, List.append_assoc]
    · rcases List.mem_append.1 mem with mem | mem
      · exact .inl (List.mem_append_left _ (List.mem_append_left _ mem))
      · rcases List.mem_cons.1 mem with rfl | mem
        · exact .inr ⟨e, inside, List.mem_cons_self⟩
        · exact .inl (List.mem_append_right _ mem)
  · -- the sequence stands for its value
    simp only [Literal, not_forall, not_not] at value
    obtain ⟨e, inside, mem⟩ := value
    obtain ⟨a, b, rfl⟩ := List.append_of_mem mem
    refine ⟨a ++ (code.introducer :: e.2) ++ b, fun same => ?_, ?_, fun c mem => ?_⟩
    · have lengths := congrArg List.length same
      have longer := List.length_pos_of_ne_nil (code.nonempty e inside)
      simp only [List.length_append, List.length_cons] at lengths
      omega
    · rw [encode_append, encode_append, encode_sequence inside, encode_append, encode_cons,
        encodeChar_special inside, List.append_assoc]
    · rcases List.mem_append.1 mem with mem | mem
      · rcases List.mem_append.1 mem with mem | mem
        · exact .inl (List.mem_append_left _ mem)
        · exact .inr ⟨e, inside, List.mem_cons_of_mem _ mem⟩
      · exact .inl (List.mem_append_right _ (List.mem_cons_of_mem _ mem))

/-- A string without sequences and escaped values is the only one that is written as it is. -/
theorem eq_of_encode_eq {s t : List α} (plain : code.Plain s) (literal : code.Literal s)
    (same : code.encode t = code.encode s) : t = s := by
  rw [literal.encode_eq] at same
  by_cases literal' : code.Literal t
  · rwa [literal'.encode_eq] at same
  · simp only [Literal, not_forall, not_not] at literal'
    obtain ⟨e, inside, mem⟩ := literal'
    obtain ⟨a, b, rfl⟩ := List.append_of_mem mem
    rw [encode_append, encode_cons, encodeChar_special inside] at same
    exact absurd ⟨code.encode a, code.encode b, by simpa using same⟩ (plain e inside)

end Escapes

end D2xCios.Lib
