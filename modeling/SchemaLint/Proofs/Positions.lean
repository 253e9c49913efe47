import Mathlib.Algebra.Group.Nat.Defs
import Mathlib.Data.List.Nodup
import SchemaLint.Program.Position

/-!
# Positions stay resolvable

A table that starts empty issues the handles one, two, three and so on. Files
are only added behind the ones that are there, so an entry keeps its file while
the table grows, and a handle keeps the location it was issued for.
-/

namespace SchemaLint.PositionTable

variable {table : PositionTable} {locations : List Location}

/-! ## One location -/

structure Numbers (files : Array String) (file : String) (later : Array String)
    (number : Nat) : Prop where
  listed : later[number]? = some file
  kept : ∀ (index : Nat) (other : String), files[index]? = some other →
      later[index]? = some other
  distinct : files.toList.Nodup → later.toList.Nodup
  size : later.size ≤ files.size + 1

theorem exists_fileNumber_eq (table : PositionTable) (file : String) :
    ∃ later number, table.fileNumber file = (⟨later, table.entries⟩, number) ∧
      Numbers table.files file later number := by
  unfold fileNumber
  cases hfound : table.files.findIdx? (· == file) with
  | some number =>
      obtain ⟨hbound, hsame, -⟩ := Array.findIdx?_eq_some_iff_getElem.1 hfound
      have hlisted : table.files[number]? = some file := by
        rw [Array.getElem?_eq_getElem hbound, eq_of_beq hsame]
      exact ⟨table.files, number, rfl, hlisted, fun _ _ hkept => hkept, id,
        Nat.le_succ _⟩
  | none =>
      have hnew : file ∉ table.files := by
        intro hmember
        simpa using Array.findIdx?_eq_none_iff.1 hfound file hmember
      refine ⟨table.files.push file, table.files.size, rfl,
        Array.getElem?_push_size, fun index other hkept => ?_,
        fun hdistinct => ?_, by simp⟩
      · obtain ⟨hbound, -⟩ := Array.getElem?_eq_some_iff.1 hkept
        rw [Array.getElem?_push_lt hbound, ← hkept,
          Array.getElem?_eq_getElem hbound]
      · rw [Array.toList_push]
        simpa using hdistinct.concat (by simpa using hnew)

/-- A new location is the last entry, and its handle is the number of
entries. -/
theorem exists_add_eq (table : PositionTable) (file : String)
    (line column : Nat) :
    ∃ later number, table.add file line column =
        (⟨later, table.entries.push ⟨number, line, column⟩⟩,
          ⟨table.entries.size + 1⟩) ∧
      Numbers table.files file later number := by
  obtain ⟨later, number, hnumbered, hnumbers⟩ := table.exists_fileNumber_eq file
  exact ⟨later, number, by simp [add, hnumbered], hnumbers⟩

theorem size_add (table : PositionTable) (file : String) (line column : Nat) :
    (table.add file line column).1.entries.size = table.entries.size + 1 := by
  obtain ⟨later, number, hadded, -⟩ := table.exists_add_eq file line column
  rw [hadded, Array.size_push]

theorem resolve?_succ_eq_some_iff {index : Nat} {location : Location} :
    table.resolve? ⟨index + 1⟩ = some location ↔
      ∃ number, table.entries[index]? =
          some ⟨number, location.line, location.column⟩ ∧
        table.files[number]? = some location.file := by
  simp only [resolve?, bind, Option.bind_eq_some_iff, pure, Option.some.injEq]
  constructor
  · rintro ⟨entry, hfound, file, hlisted, rfl⟩
    exact ⟨entry.file, hfound, hlisted⟩
  · rintro ⟨number, hfound, hlisted⟩
    exact ⟨_, hfound, _, hlisted, rfl⟩

/-! ## Histories -/

structure Records (table : PositionTable) (locations : List Location) :
    Prop where
  distinct : table.files.toList.Nodup
  files : table.files.size ≤ locations.length
  size : table.entries.size = locations.length
  resolves : ∀ index location, locations[index]? = some location →
      table.resolve? ⟨index + 1⟩ = some location

theorem records_empty : Records {} [] :=
  ⟨.nil, Nat.le_refl _, rfl, by simp⟩

theorem Records.add (hrecords : table.Records locations) (location : Location) :
    (table.add location.file location.line location.column).1.Records
        (locations ++ [location]) ∧
      (table.add location.file location.line location.column).2 =
        ⟨locations.length + 1⟩ := by
  obtain ⟨later, number, hadded, hnumbers⟩ :=
    table.exists_add_eq location.file location.line location.column
  rw [hadded, hrecords.size]
  refine ⟨⟨hnumbers.distinct hrecords.distinct, ?_, by simp [hrecords.size],
      fun index other hfound => ?_⟩, rfl⟩
  · have := hnumbers.size
    have := hrecords.files
    simp only [List.length_append, List.length_singleton]
    omega
  · rw [resolve?_succ_eq_some_iff]
    rcases Nat.lt_or_ge index locations.length with hold | hnew
    · rw [List.getElem?_append_left hold] at hfound
      obtain ⟨file, hentered, hlisted⟩ :=
        resolve?_succ_eq_some_iff.1 (hrecords.resolves index other hfound)
      refine ⟨file, ?_, hnumbers.kept file _ hlisted⟩
      rw [Array.getElem?_push, if_neg (by rw [hrecords.size]; omega), hentered]
    · rw [List.getElem?_append_right hnew, List.getElem?_singleton] at hfound
      split at hfound
      · next hlast =>
          cases hfound
          obtain rfl : index = table.entries.size := by
            rw [hrecords.size]; omega
          exact ⟨number, Array.getElem?_push_size, hnumbers.listed⟩
      · cases hfound

theorem Records.resolve?_of_length_le (hrecords : table.Records locations)
    {index : Nat} (hpast : locations.length ≤ index) :
    table.resolve? ⟨index + 1⟩ = none := by
  rw [Option.eq_none_iff_forall_ne_some]
  intro location hfound
  obtain ⟨number, hentered, -⟩ := resolve?_succ_eq_some_iff.1 hfound
  obtain ⟨hbound, -⟩ := Array.getElem?_eq_some_iff.1 hentered
  rw [hrecords.size] at hbound
  omega

theorem Records.file_lt (hrecords : table.Records locations)
    {entry : PositionEntry} (hmember : entry ∈ table.entries) :
    entry.file < locations.length := by
  obtain ⟨index, hbound, rfl⟩ := Array.mem_iff_getElem.1 hmember
  have hpast : index < locations.length := hrecords.size ▸ hbound
  obtain ⟨number, hentered, hlisted⟩ :=
    resolve?_succ_eq_some_iff.1
      (hrecords.resolves index _ (List.getElem?_eq_getElem hpast))
  obtain ⟨hinside, -⟩ := Array.getElem?_eq_some_iff.1 hlisted
  rw [Array.getElem?_eq_getElem hbound, Option.some.injEq] at hentered
  rw [hentered]
  exact Nat.lt_of_lt_of_le hinside hrecords.files

/-- The table after locations are added one after the other, and the positions
that stand for them. -/
def addAll (table : PositionTable) : List Location → PositionTable × List Pos
  | [] => (table, [])
  | location :: rest =>
    let (next, pos) := table.add location.file location.line location.column
    let (last, issued) := next.addAll rest
    (last, pos :: issued)

theorem Records.addAll (hrecords : table.Records locations)
    (more : List Location) :
    (table.addAll more).1.Records (locations ++ more) ∧
      (table.addAll more).2 =
        (List.range' (locations.length + 1) more.length).map Pos.mk := by
  induction more generalizing table locations with
  | nil => simpa [PositionTable.addAll] using hrecords
  | cons location rest ih =>
      obtain ⟨hrecorded, hhandle⟩ := hrecords.add location
      obtain ⟨hall, hissued⟩ := ih hrecorded
      simp only [List.append_assoc, List.singleton_append, List.length_append,
        List.length_singleton] at hall hissued
      simpa [PositionTable.addAll, hhandle, hissued,
        List.range'_succ] using hall

theorem addAll_append (table : PositionTable) (earlier later : List Location) :
    table.addAll (earlier ++ later) =
      (((table.addAll earlier).1.addAll later).1, (table.addAll earlier).2 ++
          ((table.addAll earlier).1.addAll later).2) := by
  induction earlier generalizing table with
  | nil => rfl
  | cons location rest ih => simp [addAll, ih]

private theorem records_addAll (locations : List Location) :
    (addAll {} locations).1.Records locations :=
  (records_empty.addAll locations).1

theorem issued_eq (locations : List Location) :
    (addAll {} locations).2 = (List.range' 1 locations.length).map Pos.mk :=
  (records_empty.addAll locations).2

theorem mem_issued_iff {pos : Pos} :
    pos ∈ (addAll {} locations).2 ↔
      0 < pos.handle ∧ pos.handle ≤ locations.length := by
  rw [issued_eq, List.mem_map]
  constructor
  · rintro ⟨handle, hinside, rfl⟩
    obtain ⟨hlow, hhigh⟩ := List.mem_range'_1.1 hinside
    rw [Nat.add_comm] at hhigh
    exact ⟨hlow, Nat.le_of_lt_succ hhigh⟩
  · rintro ⟨hpositive, hsmall⟩
    exact ⟨pos.handle, List.mem_range'_1.2 (by omega), rfl⟩

/-- Positions that an empty table has issued are known and distinct, and each
stands for its location however many locations are added later. All other
positions stand for none, and no file is listed twice. Below two to the power of
32 locations, every handle and every file number is of 32 bits. -/
theorem issued_positions_resolve (earlier later : List Location)
    (hfew : (earlier ++ later).length < 2 ^ 32) : let first := addAll {} earlier
    let last := first.1.addAll later
    last.1.files.toList.Nodup ∧
      (∀ pos ∈ first.2 ++ last.2, pos.isKnown ∧ pos.handle < 2 ^ 32) ∧
      (first.2 ++ last.2).Nodup ∧
      first.2.map last.1.resolve? = earlier.map some ∧
      (∀ pos, pos ∉ first.2 ++ last.2 → last.1.resolve? pos = none) ∧
      ∀ entry ∈ last.1.entries, entry.file < 2 ^ 32 := by
  intro first last
  have hwhole : addAll {} (earlier ++ later) = (last.1, first.2 ++ last.2) :=
    addAll_append {} earlier later
  have hrecords : last.1.Records (earlier ++ later) := by
    simpa [hwhole] using records_addAll (earlier ++ later)
  have hmember_iff (pos : Pos) : pos ∈ first.2 ++ last.2 ↔
      0 < pos.handle ∧ pos.handle ≤ (earlier ++ later).length := by
    rw [← mem_issued_iff, hwhole]
  refine ⟨hrecords.distinct, fun pos hmember => ?_, ?_, ?_,
    fun pos habsent => ?_, fun entry hmember => ?_⟩
  · obtain ⟨hpositive, hsmall⟩ := (hmember_iff pos).1 hmember
    have hknown : pos ≠ .unknown :=
      fun hnone => by simp [hnone, Pos.unknown] at hpositive
    exact ⟨bne_iff_ne.2 hknown, Nat.lt_of_le_of_lt hsmall hfew⟩
  · have hissued : first.2 ++ last.2 = _ :=
      (congrArg Prod.snd hwhole).symm.trans (issued_eq (earlier ++ later))
    rw [hissued]
    exact (List.nodup_range' 1).map fun _ _ hsame => congrArg Pos.handle hsame
  · rw [issued_eq earlier]
    refine List.ext_getElem (by simp) fun index hbound _ => ?_
    have hold : index < earlier.length := by simpa using hbound
    have hplaced : (earlier ++ later)[index]? = some earlier[index] := by
      rw [List.getElem?_append_left hold, List.getElem?_eq_getElem hold]
    simpa [Nat.add_comm] using hrecords.resolves index earlier[index] hplaced
  · obtain ⟨_ | index⟩ := pos
    · rfl
    · refine hrecords.resolve?_of_length_le
        (Nat.le_of_not_lt fun hearly => habsent ?_)
      exact (hmember_iff _).2 ⟨Nat.succ_pos _, hearly⟩
  · exact Nat.lt_trans (hrecords.file_lt hmember) hfew

def twoFiles : List Location := [⟨"main.go", 3, 1⟩, ⟨"util.go", 3, 1⟩]

theorem twoFiles_positions_resolve :
    (twoFiles ++ [⟨"main.go", 3, 1⟩] : List Location).length < 2 ^ 32 ∧
      (addAll {} twoFiles).2 = [⟨1⟩, ⟨2⟩] ∧
      [⟨1⟩, ⟨2⟩].map
          ((addAll {} twoFiles).1.addAll [⟨"main.go", 3, 1⟩]).1.resolve? =
        twoFiles.map some ∧
      ((addAll {} twoFiles).1.addAll [⟨"main.go", 3, 1⟩]).1.resolve? ⟨4⟩ =
        none := by
  have hfew : (twoFiles ++ [⟨"main.go", 3, 1⟩] : List Location).length <
      2 ^ 32 := by decide
  have hissued : (addAll {} twoFiles).2 = [⟨1⟩, ⟨2⟩] := by decide +kernel
  have hissuedLater : ((addAll {} twoFiles).1.addAll [⟨"main.go", 3, 1⟩]).2 =
      [⟨3⟩] := by decide +kernel
  obtain ⟨-, -, -, hresolved, hothers, -⟩ :=
    issued_positions_resolve twoFiles [⟨"main.go", 3, 1⟩] hfew
  rw [hissued] at hresolved hothers
  rw [hissuedLater] at hothers
  exact ⟨hfew, hissued, hresolved, hothers ⟨4⟩ (by decide)⟩

end SchemaLint.PositionTable
