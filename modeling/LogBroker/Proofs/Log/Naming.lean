import LogBroker.Log.Directory
import Mathlib.Data.List.Basic
import Std.Data.String.ToNat

/-!
# Names of partition directories

The directory of a partition is named for its topic and its number, with a dash in between.
Digits are no dashes, so the last dash of the name is where the digits begin. In front of it
stands the topic, and behind the topic the sign of a negative number. That sign is a dash
too, and a topic may end with a dash: there the name does not tell topic and number apart.

* `LogDirectory.partitionName_eq_iff` says which partitions share a name: none but
  `LogDirectory.Twins`.
* `LogDirectory.segmentPath_eq_directory` says where the log of a partition is, from the topic and
  the number, and `LogDirectory.segmentPath_eq_iff` which partitions share a log.
-/

namespace LogBroker

/-! ## Entries of a directory -/

namespace Path

/-- A text that can be the name of an entry in a directory. -/
structure Component (name : String) : Prop where
  /-- there is something to name it -/
  nonempty : name ≠ ""
  /-- it is one component of a path, not several -/
  single : separator ∉ name.toList
  /-- it has no character at which a name ends -/
  unterminated : Char.ofNat 0 ∉ name.toList

instance (name : String) : Decidable (Component name) :=
  decidable_of_iff (name ≠ "" ∧ separator ∉ name.toList ∧ Char.ofNat 0 ∉ name.toList)
    ⟨fun ⟨nonempty, single, unterminated⟩ => ⟨nonempty, single, unterminated⟩,
      fun ⟨nonempty, single, unterminated⟩ => ⟨nonempty, single, unterminated⟩⟩

/-- What the paths of all entries of a directory begin with. -/
def front (directory : String) : String :=
  if directory.isEmpty || directory.toList.getLast? == some separator then directory
  else directory ++ "/"

namespace Component

variable {name : String}

/-- An entry is found below its directory. -/
theorem join_eq (h : Component name) (directory : String) :
    join directory name = front directory ++ name := by
  have relative : isAbsolute name = false := by
    rw [isAbsolute, beq_eq_false_iff_ne]
    intro first
    exact h.single (List.mem_of_mem_head? (Option.mem_def.mpr first))
  rw [join, front, relative]
  split
  · contradiction
  · split <;> rfl

/-- An entry that is a directory itself has a separator in front of its entries. -/
theorem front_append (h : Component name) (left : String) :
    front (left ++ name) = left ++ name ++ "/" := by
  have filled : name.toList ≠ [] := fun empty => h.nonempty (String.toList_eq_nil_iff.mp empty)
  have nonempty : (left ++ name).isEmpty = false :=
    String.isEmpty_eq_false_iff.mpr fun empty => h.nonempty (String.append_eq_empty_iff.mp empty).2
  have last : (left ++ name).toList.getLast? ≠ some separator := by
    rw [String.toList_append, List.getLast?_append_of_ne_nil _ filled]
    intro same
    exact h.single (List.mem_of_getLast? same)
  rw [front, nonempty, beq_eq_false_iff_ne.mpr last]
  rfl

end Component

end Path

/-! ## Decimal numbers -/

/-- A number is written with digits. -/
theorem isDigit_of_mem_repr {n : Nat} {c : Char} (h : c ∈ n.repr.toList) : c.isDigit = true := by
  rw [Nat.toList_repr] at h
  exact Nat.isDigit_of_mem_toDigits (by decide) (by decide) h

/-- There is no dash among digits. -/
theorem dash_notMem_repr (n : Nat) : '-' ∉ n.repr.toList := by
  intro mem
  exact absurd (isDigit_of_mem_repr mem) (by decide)

/-- A number with its sign, which is a dash if there is one. -/
theorem toList_toString_int (n : Int) :
    (toString n).toList = (if n < 0 then ['-'] else []) ++ n.natAbs.repr.toList := by
  rw [Int.toString_eq_repr]
  cases n with
  | ofNat m => rfl
  | negSucc m =>
    rw [if_pos (Int.negSucc_lt_zero m)]
    exact String.toList_append

/-- What stands in front of the last separator, and what stands behind it. -/
theorem append_cons_inj_of_notMem_right {α : Type} {c : α} {left left' right right' : List α}
    (h : c ∉ right) (h' : c ∉ right') :
    left ++ c :: right = left' ++ c :: right' ↔ left = left' ∧ right = right' := by
  refine ⟨?_, fun ⟨hl, hr⟩ => by rw [hl, hr]⟩
  intro same
  -- if one front were longer, the other's separator would stand behind a separator
  rcases List.append_eq_append_iff.mp same with ⟨between, rfl, rest⟩ | ⟨between, rfl, rest⟩
  · cases between with
    | nil => exact ⟨(List.append_nil _).symm, (List.cons.inj rest).2⟩
    | cons first others =>
      rw [(List.cons.inj rest).2] at h
      exact absurd (List.mem_append_right others List.mem_cons_self) h
  · cases between with
    | nil => exact ⟨List.append_nil _, (List.cons.inj rest).2.symm⟩
    | cons first others =>
      rw [(List.cons.inj rest).2] at h'
      exact absurd (List.mem_append_right others List.mem_cons_self) h'

namespace LogDirectory

/-! ## Which partitions share a name -/

/-- A partition with a negative number, and the partition with its opposite of the topic that
has a dash more. -/
structure Mirrors (topic : String) (n : Int32) (other : String) (m : Int32) : Prop where
  /-- the other topic has a dash more -/
  dashed : other = topic ++ "-"
  /-- its number is positive -/
  positive : 0 < m.toInt
  /-- and the opposite of the other -/
  negated : n.toInt = -m.toInt

instance (topic : String) (n : Int32) (other : String) (m : Int32) :
    Decidable (Mirrors topic n other m) :=
  decidable_of_iff (other = topic ++ "-" ∧ 0 < m.toInt ∧ n.toInt = -m.toInt)
    ⟨fun ⟨dashed, positive, negated⟩ => ⟨dashed, positive, negated⟩,
      fun ⟨dashed, positive, negated⟩ => ⟨dashed, positive, negated⟩⟩

/-- Two partitions of which one mirrors the other. -/
def Twins (topic : String) (n : Int32) (other : String) (m : Int32) : Prop :=
  Mirrors topic n other m ∨ Mirrors other m topic n

instance (topic : String) (n : Int32) (other : String) (m : Int32) :
    Decidable (Twins topic n other m) :=
  inferInstanceAs (Decidable (_ ∨ _))

/-- What stands in front of the last dash in the name of a partition's directory. -/
def signed (topic : String) (n : Int32) : List Char :=
  topic.toList ++ if n.toInt < 0 then ['-'] else []

theorem toList_partitionName (topic : String) (n : Int32) :
    (partitionName topic n).toList =
      signed topic n ++ '-' :: n.toInt.natAbs.repr.toList := by
  rw [partitionName, signed, String.toList_append, String.toList_append, toList_toString_int]
  -- the dash of the name and that of the sign are one as good as the other
  split <;> simp

theorem partitionName_eq_iff_signed {topic other : String} {n m : Int32} :
    partitionName topic n = partitionName other m ↔
      signed topic n = signed other m ∧ n.toInt.natAbs = m.toInt.natAbs := by
  rw [← String.toList_inj, toList_partitionName, toList_partitionName,
    append_cons_inj_of_notMem_right (dash_notMem_repr _) (dash_notMem_repr _),
    String.toList_inj, Nat.repr_inj]

/-- In a mirror only the one number has a sign, and only the other topic has the dash. -/
theorem mirrors_iff {topic other : String} {n m : Int32} :
    Mirrors topic n other m ↔
      (n.toInt < 0 ∧ 0 ≤ m.toInt) ∧
        topic.toList ++ ['-'] = other.toList ∧ n.toInt.natAbs = m.toInt.natAbs := by
  have names : topic.toList ++ ['-'] = other.toList ↔ other = topic ++ "-" := by
    rw [eq_comm, ← String.toList_inj, String.toList_append]
    rfl
  rw [names]
  constructor
  · rintro ⟨dashed, positive, negated⟩
    exact ⟨⟨by omega, by omega⟩, dashed, by omega⟩
  · rintro ⟨⟨negative, positive⟩, dashed, same⟩
    exact ⟨dashed, by omega, by omega⟩

/-- **No two partitions share a directory unless they are twins.** -/
theorem partitionName_eq_iff {topic other : String} {n m : Int32} :
    partitionName topic n = partitionName other m ↔
      (topic = other ∧ n = m) ∨ Twins topic n other m := by
  rw [partitionName_eq_iff_signed, Twins, mirrors_iff, mirrors_iff, signed, signed,
    ← String.toList_inj, ← Int32.toInt_inj]
  -- with equal signs nothing mirrors anything, with different signs nothing else is left
  rcases Int.lt_or_le n.toInt 0 with hn | hn <;> rcases Int.lt_or_le m.toInt 0 with hm | hm
  · have numbers : n.toInt.natAbs = m.toInt.natAbs ↔ n.toInt = m.toInt := by omega
    simp [hn, hm, numbers, Int.not_le.mpr hn, Int.not_le.mpr hm]
  · have numbers : n.toInt ≠ m.toInt := by omega
    simp [hn, Int.not_lt.mpr hm, hm, numbers]
  · have numbers : n.toInt ≠ m.toInt := by omega
    simp [hm, Int.not_lt.mpr hn, hn, numbers, eq_comm]
  · have numbers : n.toInt.natAbs = m.toInt.natAbs ↔ n.toInt = m.toInt := by omega
    simp [numbers, Int.not_lt.mpr hn, Int.not_lt.mpr hm]

/-! ## Paths of logs -/

/-- To the topic the name adds nothing but dashes and digits. -/
theorem notMem_partitionName {topic : String} {c : Char} (h : c ∉ topic.toList)
    (other : c ≠ '-' ∧ c.isDigit = false) (n : Int32) : c ∉ (partitionName topic n).toList := by
  rw [toList_partitionName, signed, List.mem_append, List.mem_append, List.mem_cons]
  rintro ((named | sign) | dash | digit)
  · exact h named
  · split at sign
    · exact other.1 (List.mem_singleton.mp sign)
    · exact List.not_mem_nil sign
  · exact other.1 dash
  · rw [isDigit_of_mem_repr digit] at other
    exact absurd other.2 (by decide)

/-- The directory of a partition is an entry of the directory of the logs. -/
theorem component_partitionName {topic : String} (h : Path.Component topic) (n : Int32) :
    Path.Component (partitionName topic n) where
  nonempty empty := by
    have none := congrArg String.toList empty
    rw [toList_partitionName] at none
    exact absurd none (List.append_ne_nil_of_right_ne_nil _ (List.cons_ne_nil _ _))
  single := notMem_partitionName h.single (by decide) n
  unterminated := notMem_partitionName h.unterminated (by decide) n

/-- The path of a log is made of the path of the logs, the name of its directory and the name
that all logs have. -/
theorem segmentPath_eq {topic : String} (h : Path.Component topic) (logs : LogDirectory)
    (n : Int32) :
    logs.segmentPath topic n =
      Path.front logs.root ++ partitionName topic n ++ "/" ++ segmentName := by
  have name := component_partitionName h n
  have file : Path.Component segmentName := by decide +kernel
  rw [segmentPath, file.join_eq, name.join_eq, name.front_append]

/-- **A log is in the directory of its partition**, which has the topic and the number in its name,
with a dash in between. -/
theorem segmentPath_eq_directory {topic : String} (h : Path.Component topic) (logs : LogDirectory)
    (n : Int32) :
    logs.segmentPath topic n =
      Path.front logs.root ++ (topic ++ "-" ++ toString n.toInt) ++ "/" ++
        "00000000000000000000.log" := segmentPath_eq h logs n

/-- **No two partitions share a log unless they are twins.** -/
theorem segmentPath_eq_iff {topic other : String} (h : Path.Component topic)
    (h' : Path.Component other) (logs : LogDirectory) {n m : Int32} :
    logs.segmentPath topic n = logs.segmentPath other m ↔
      (topic = other ∧ n = m) ∨ Twins topic n other m := by
  rw [segmentPath_eq h, segmentPath_eq h', String.append_left_inj, String.append_left_inj,
    String.append_right_inj, partitionName_eq_iff]

/-- Of two partitions that differ, no more is asked. -/
theorem segmentPath_eq_iff_twins {topic other : String} (h : Path.Component topic)
    (h' : Path.Component other) (logs : LogDirectory) {n m : Int32}
    (distinct : (topic, n) ≠ (other, m)) :
    logs.segmentPath topic n = logs.segmentPath other m ↔ Twins topic n other m := by
  rw [segmentPath_eq_iff h h', or_iff_right]
  rintro ⟨rfl, rfl⟩
  exact distinct rfl

end LogDirectory

end LogBroker
