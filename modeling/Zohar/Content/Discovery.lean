/-
Which files of private data there are, and in what order they are applied. A file system lists a directory in any order
it likes; what is found is the same for all of them: the SQL files of the packs by ascending id, unless two packs, or
two files of one pack, begin with the same number, a name is not Unicode, or something cannot be read. From
zohar-content/src/migrations/private_data.rs and zohar-content/src/builder.rs. A directory that cannot be listed to its
end, or of an entry of which the kind is not told, is one that fails as a whole, as it does there; of its errors, and of
those of reading a file, the text is kept.
-/
import Zohar.Content.Migrations
import Zohar.Lib.Reports
import Mathlib.Data.Char
import Mathlib.Data.List.Lex
import Mathlib.Data.List.Sort

namespace Zohar.Content

open Zohar.Lib
open Zohar.Game (Text utf8)
open Zohar.Net (Bytes)

/-! ## Names -/

/-- The text of well-formed UTF-8. -/
def fromUtf8 (bytes : Bytes) : Option Text := (ByteArray.mk bytes.toArray).utf8Decode?.map Array.toList

def slash : UInt8 := 0x2F

/-- What a directory lists, in the order of the file system: every name once, and no name has a slash. -/
structure Listing (α : Type) where
  entries : List (FileName × α)
  distinct : (entries.map (·.1)).Nodup
  plain : ∀ entry ∈ entries, slash ∉ entry.1

/-- An entry of a pack: a file with its bytes, or the error of reading it, or no file. -/
inductive PackEntry where
  | file (content : Except Text Bytes)
  | other

/-- An entry of the root: a directory, or none. -/
inductive RootEntry where
  | dir (files : Except Text (Listing PackEntry))
  | other

/-- The root of private data, where there is one. -/
abbrev Root := Option (Except Text (Listing RootEntry))

/-- `Path::extension` of a file name: what follows the last dot, unless nothing comes before that. -/
def extension (name : FileName) : Option FileName :=
  if name = utf8 "..".toList then none
  else
    let after := (name.reverse.takeWhile (· ≠ 0x2E)).reverse
    if name.length ≤ after.length + 1 then none else some after

/-- `file_name_string` of a name in a directory. -/
def fileNameString (dir : List FileName) (name : FileName) : Except ContentError Text :=
  match fromUtf8 name with
  | none => .error (.nonUtf8Path (dir ++ [name]))
  | some fileName => .ok fileName

/-- `numeric_prefix`. -/
def numericStart (name : Text) : Option Text :=
  let digits := name.takeWhile fun ch => ch.isDigit
  if digits.isEmpty then none else some digits

/-- `ensure_unique_numeric_prefixes`, with the numbers that were seen. -/
def ensureUniqueFrom (dir : List FileName) (scope : Text) (seen : List Text) : List FileName → Except ContentError Unit
  | [] => return ()
  | name :: names => do
    let fileName ← fileNameString dir name
    match numericStart fileName with
    | none => ensureUniqueFrom dir scope seen names
    | some digits =>
      if seen.contains digits then throw (.duplicatePrefix scope digits)
      else ensureUniqueFrom dir scope (digits :: seen) names

def ensureUniqueNumericPrefixes (dir names : List FileName) (scope : Text) : Except ContentError Unit :=
  ensureUniqueFrom dir scope [] names

/-! ## Discovery -/

/-- Paths in one directory go by the bytes of their names. -/
def byteValues (name : FileName) : List Nat := name.map UInt8.toNat

/-- Entries by name. -/
def sortByName {α : Type} (entries : List (FileName × α)) : List (FileName × α) :=
  entries.insertionSort fun a b => byteValues a.1 ≤ byteValues b.1

def sqlFile : FileName × PackEntry → Option (FileName × Except Text Bytes)
  | (name, .file content) => if (extension name).bind fromUtf8 = some "sql".toList then some (name, content) else none
  | (_, .other) => none

def packDir : FileName × RootEntry → Option (FileName × Except Text (Listing PackEntry))
  | (name, .dir files) => some (name, files)
  | (_, .other) => none

/-- `read_dir`, and going through what it lists. -/
def readDir {α : Type} (listing : Except Text α) : Except ContentError α := listing.mapError .io

def notText : Text := "stream did not contain valid UTF-8".toList

/-- `read_to_string`. -/
def readToString (content : Except Text Bytes) : Except ContentError Text := do
  let bytes ← content.mapError .io
  match fromUtf8 bytes with
  | none => throw (.io notText)
  | some sql => return sql

variable {T : Type}

/-- A round of the loop over the files of a pack. -/
def discoverFile (engine : Engine T) (pack : FileName) (packName : Text) (file : FileName × Except Text Bytes) :
    Except ContentError DiscoveredMigration := do
  let fileName ← fileNameString [pack] file.1
  let sql ← readToString file.2
  return ⟨packName ++ ['/'] ++ fileName, engine.hashText sql, sql⟩

/-- A round of the loop over the packs. -/
def discoverPack (engine : Engine T) (pack : FileName × Except Text (Listing PackEntry)) :
    Except ContentError (List DiscoveredMigration) := do
  let packName ← fileNameString [] pack.1
  let listing ← readDir pack.2
  let files := sortByName (listing.entries.filterMap sqlFile)
  ensureUniqueNumericPrefixes [pack.1] (files.map (·.1)) ("pack ".toList ++ packName)
  files.mapM (discoverFile engine pack.1 packName)

def discoverPrivateMigrations (engine : Engine T) : Root → Except ContentError (List DiscoveredMigration)
  | none => return []
  | some root => do
    let listing ← readDir root
    let packs := sortByName (listing.entries.filterMap packDir)
    ensureUniqueNumericPrefixes [] (packs.map (·.1)) "data/content packs".toList
    let out ← packs.mapM (discoverPack engine)
    return out.flatten.insertionSort fun a b => a.id ≤ b.id

structure MigrationSummary where
  schemaApplied : List AppliedMigration
  dataApplied : List AppliedMigration
  rejectedStatements : List RejectedStatement

/-- `run_with_private_root` over a fresh database, up to the loading of the catalog. -/
def runWithPrivateRoot (engine : Engine T) (file : Text → Text) (root : Root) : Script T MigrationSummary := do
  let schemaApplied ← applySchemaMigrations engine (schemaMigrations file)
  let (dataApplied, rejectedStatements) ← applyPrivateDataMigrations engine (discoverPrivateMigrations engine root)
  return ⟨schemaApplied, dataApplied, rejectedStatements⟩

/-! ## Sorting by name -/

section
variable {α : Type} {entries entries' : List (FileName × α)}

theorem byteValues_injective : Function.Injective byteValues :=
  fun _ _ h => List.map_injective_iff.2 (fun _ _ => UInt8.toNat_inj.1) h

theorem perm_sortByName (entries : List (FileName × α)) : (sortByName entries).Perm entries :=
  List.perm_insertionSort _ entries

theorem pairwise_sortByName (entries : List (FileName × α)) :
    (sortByName entries).Pairwise fun a b => byteValues a.1 ≤ byteValues b.1 := by
  have htotal : Std.Total fun a b : FileName × α => byteValues a.1 ≤ byteValues b.1 := ⟨fun a b => le_total _ _⟩
  have htrans : IsTrans (FileName × α) fun a b => byteValues a.1 ≤ byteValues b.1 := ⟨fun _ _ _ => le_trans⟩
  exact List.pairwise_insertionSort _ entries

/-- Entries of distinct names are sorted in one way. -/
theorem sortByName_eq_of_perm (hdistinct : (entries.map (·.1)).Nodup) (h : entries.Perm entries') :
    sortByName entries = sortByName entries' := by
  have hperm : (sortByName entries).Perm (sortByName entries') :=
    (perm_sortByName entries).trans (h.trans (perm_sortByName entries').symm)
  refine List.Perm.eq_of_pairwise ?_ (pairwise_sortByName entries) (pairwise_sortByName entries') hperm
  intro a b ha hb hab hba
  have ha' := (perm_sortByName entries).subset ha
  have hb' := h.symm.subset ((perm_sortByName entries').subset hb)
  exact List.inj_on_of_nodup_map hdistinct ha' hb' (byteValues_injective (le_antisymm hab hba))

theorem nodup_sortByName (hdistinct : (entries.map (·.1)).Nodup) : ((sortByName entries).map (·.1)).Nodup :=
  ((perm_sortByName entries).map Prod.fst).nodup_iff.2 hdistinct

end

/-! ## The order of the file system -/

/-- The same directory, listed in another order; where listing it fails, it fails with the same error. -/
def SameEntry : RootEntry → RootEntry → Prop
  | .dir (.ok files), .dir (.ok files') => files.entries.Perm files'.entries
  | .dir (.error error), .dir (.error error') => error = error'
  | .other, .other => True
  | .dir _, _ | .other, _ => False

/-- The same root, with every directory of it listed in another order. -/
def SameRoot : Root → Root → Prop
  | some (.ok root), some (.ok root') => ∃ entries, root.entries.Perm entries ∧
    List.Forall₂ (fun a b => a.1 = b.1 ∧ SameEntry a.2 b.2) entries root'.entries
  | some (.error error), some (.error error') => error = error'
  | none, none => True
  | some _, _ | none, _ => False

section
variable {engine : Engine T}

/-- The SQL files of a pack by name. -/
def sortedFiles (files : Listing PackEntry) : List (FileName × Except Text Bytes) :=
  sortByName (files.entries.filterMap sqlFile)

def sortedPack (pack : FileName × Except Text (Listing PackEntry)) :
    FileName × Except Text (List (FileName × Except Text Bytes)) :=
  (pack.1, pack.2.map sortedFiles)

/-- A round of the loop over the packs, of which it reads the name and the sorted files. -/
def discoverSorted (engine : Engine T) (pack : FileName × Except Text (List (FileName × Except Text Bytes))) :
    Except ContentError (List DiscoveredMigration) := do
  let packName ← fileNameString [] pack.1
  let files ← readDir pack.2
  ensureUniqueNumericPrefixes [pack.1] (files.map (·.1)) ("pack ".toList ++ packName)
  files.mapM (discoverFile engine pack.1 packName)

theorem discoverPack_eq (pack : FileName × Except Text (Listing PackEntry)) :
    discoverPack engine pack = discoverSorted engine (sortedPack pack) := by
  obtain ⟨name, _ | files⟩ := pack <;> rfl

theorem map_sortByName {α β : Type} (f : α → β) (entries : List (FileName × α)) :
    (sortByName entries).map (fun entry => (entry.1, f entry.2)) =
      sortByName (entries.map fun entry => (entry.1, f entry.2)) :=
  List.map_insertionSort _ _ _ _ fun _ _ _ _ => Iff.rfl

theorem distinct_files (files : Listing PackEntry) : ((files.entries.filterMap sqlFile).map (·.1)).Nodup := by
  have hsub : ∀ entries : List (FileName × PackEntry),
      ((entries.filterMap sqlFile).map (·.1)).Sublist (entries.map (·.1)) := by
    intro entries
    induction entries with
    | nil => exact List.Sublist.slnil
    | cons entry entries ih =>
      obtain ⟨name, kind⟩ := entry
      cases hfile : sqlFile (name, kind) with
      | none =>
        rw [List.filterMap_cons_none hfile]
        exact ih.cons name
      | some file =>
        have hname : file.1 = name := by
          cases kind with
          | other => cases hfile
          | file content =>
            unfold sqlFile at hfile
            dsimp only at hfile
            split at hfile
            · cases hfile
              rfl
            · cases hfile
        rw [List.filterMap_cons_some hfile, List.map_cons, hname]
        exact ih.cons_cons name
  exact (hsub files.entries).nodup files.distinct

theorem distinct_packs (root : Listing RootEntry) : ((root.entries.filterMap packDir).map (·.1)).Nodup := by
  have hsub : ∀ entries : List (FileName × RootEntry),
      ((entries.filterMap packDir).map (·.1)).Sublist (entries.map (·.1)) := by
    intro entries
    induction entries with
    | nil => exact List.Sublist.slnil
    | cons entry entries ih =>
      obtain ⟨name, kind⟩ := entry
      cases kind with
      | other => exact ih.cons name
      | dir files => exact ih.cons_cons name
  exact (hsub root.entries).nodup root.distinct

theorem sortedPack_of_same {name : FileName} {files files' : Except Text (Listing PackEntry)}
    (h : SameEntry (.dir files) (.dir files')) : sortedPack (name, files) = sortedPack (name, files') := by
  cases files with
  | error error =>
    cases files' with
    | error error' => exact congrArg (fun error => (name, Except.error error)) h
    | ok _ => exact h.elim
  | ok files =>
    cases files' with
    | error _ => exact h.elim
    | ok files' =>
      have hsame : sortedFiles files = sortedFiles files' :=
        sortByName_eq_of_perm (distinct_files files) (h.filterMap sqlFile)
      exact congrArg (fun files => (name, Except.ok files)) hsame

theorem sortedPacks_of_forall₂ {entries entries' : List (FileName × RootEntry)}
    (h : List.Forall₂ (fun a b => a.1 = b.1 ∧ SameEntry a.2 b.2) entries entries') :
    (entries.filterMap packDir).map sortedPack = (entries'.filterMap packDir).map sortedPack := by
  induction h with
  | nil => rfl
  | @cons a b entries entries' hsame _ ih =>
    obtain ⟨name, kind⟩ := a
    obtain ⟨name', kind'⟩ := b
    obtain ⟨rfl, hkind⟩ := hsame
    cases kind with
    | other =>
      cases kind' with
      | other => exact ih
      | dir _ => exact hkind.elim
    | dir files =>
      cases kind' with
      | other => cases files <;> exact hkind.elim
      | dir files' =>
        show sortedPack (name, files) :: _ = sortedPack (name, files') :: _
        rw [ih, sortedPack_of_same hkind]

/-- What is found, and in what order, is the same however the file system lists its directories, and so is the error. -/
theorem discoverPrivateMigrations_of_same {root root' : Root} (h : SameRoot root root') :
    discoverPrivateMigrations engine root = discoverPrivateMigrations engine root' := by
  rcases root with _ | _ | root
  · rcases root' with _ | _
    · rfl
    · exact h.elim
  · rcases root' with _ | _ | _
    · exact h.elim
    · cases h
      rfl
    · exact h.elim
  · rcases root' with _ | _ | root'
    · exact h.elim
    · exact h.elim
    obtain ⟨entries, hperm, hsame⟩ := h
    have hpacks : (sortByName (root.entries.filterMap packDir)).map sortedPack =
        (sortByName (root'.entries.filterMap packDir)).map sortedPack := by
      have hdistinct : (((root.entries.filterMap packDir).map sortedPack).map (·.1)).Nodup := by
        rw [List.map_map]
        exact distinct_packs root
      calc (sortByName (root.entries.filterMap packDir)).map sortedPack
          = sortByName ((root.entries.filterMap packDir).map sortedPack) := map_sortByName (Except.map sortedFiles) _
        _ = sortByName ((root'.entries.filterMap packDir).map sortedPack) :=
          sortByName_eq_of_perm hdistinct (sortedPacks_of_forall₂ hsame ▸ (hperm.filterMap packDir).map sortedPack)
        _ = (sortByName (root'.entries.filterMap packDir)).map sortedPack :=
          (map_sortByName (Except.map sortedFiles) _).symm
    have hnames : (sortByName (root.entries.filterMap packDir)).map (·.1) =
        (sortByName (root'.entries.filterMap packDir)).map (·.1) := by
      have hfirst := congrArg (List.map Prod.fst) hpacks
      rwa [List.map_map, List.map_map] at hfirst
    have hfound : (sortByName (root.entries.filterMap packDir)).mapM (discoverPack engine) =
        (sortByName (root'.entries.filterMap packDir)).mapM (discoverPack engine) := by
      rw [funext discoverPack_eq]
      have hsorted := congrArg (List.mapM (discoverSorted engine)) hpacks
      rwa [List.mapM_map, List.mapM_map] at hsorted
    have hlisted : ∀ listing : Listing RootEntry, discoverPrivateMigrations engine (some (.ok listing)) = (do
        ensureUniqueNumericPrefixes [] ((sortByName (listing.entries.filterMap packDir)).map (·.1))
          "data/content packs".toList
        let out ← (sortByName (listing.entries.filterMap packDir)).mapM (discoverPack engine)
        return out.flatten.insertionSort fun a b => a.id ≤ b.id) := fun _ => rfl
    rw [hlisted, hlisted, hnames, hfound]

/-- A build from a fresh database, cut off after some commands or not, returns and leaves the same however the file
system lists the private data. -/
theorem build_ignores_listing_order {root root' : Root} (h : SameRoot root root') (file : Text → Text)
    (left : Option Nat) (db : ContentDb T) :
    attempt (runWithPrivateRoot engine file root) left db = attempt (runWithPrivateRoot engine file root') left db := by
  unfold runWithPrivateRoot
  rw [discoverPrivateMigrations_of_same h]

end

/-! ## A pack listed backwards -/

theorem Listing.reverse_distinct {α : Type} (listing : Listing α) : (listing.entries.reverse.map (·.1)).Nodup := by
  rw [List.map_reverse]
  exact List.nodup_reverse.2 listing.distinct

theorem Listing.reverse_plain {α : Type} (listing : Listing α) : ∀ entry ∈ listing.entries.reverse, slash ∉ entry.1 :=
  fun entry hentry => listing.plain entry (List.mem_reverse.1 hentry)

def Listing.reverse {α : Type} (listing : Listing α) : Listing α :=
  ⟨listing.entries.reverse, listing.reverse_distinct, listing.reverse_plain⟩

def baseEntries : List (FileName × PackEntry) :=
  [(utf8 "0002__more.sql".toList, .file (.ok (utf8 "TWO".toList))),
    (utf8 "0001__seed.sql".toList, .file (.ok (utf8 "ONE".toList))),
    (utf8 "README".toList, .file (.ok []))]

theorem baseEntries_distinct : (baseEntries.map (·.1)).Nodup := by decide +kernel

theorem baseEntries_plain : ∀ entry ∈ baseEntries, slash ∉ entry.1 := by decide +kernel

def basePack : Listing PackEntry := ⟨baseEntries, baseEntries_distinct, baseEntries_plain⟩

theorem rootOf_plain (files : Listing PackEntry) :
    ∀ entry ∈ [(utf8 "010_base".toList, RootEntry.dir (.ok files))], slash ∉ entry.1 := by
  intro entry hentry
  rw [List.mem_singleton.1 hentry]
  show slash ∉ utf8 "010_base".toList
  decide +kernel

/-- The root with the pack of these files, listed in a given order. -/
def rootOf (files : Listing PackEntry) : Listing RootEntry :=
  ⟨[(utf8 "010_base".toList, .dir (.ok files))], List.nodup_singleton _, rootOf_plain files⟩

theorem build_ignores_listing_order_base :
    attempt (runWithPrivateRoot journal id (some (.ok (rootOf basePack)))) none ⟨[], none, none⟩ =
      attempt (runWithPrivateRoot journal id (some (.ok (rootOf basePack.reverse)))) none ⟨[], none, none⟩ := by
  have hsame : SameRoot (some (.ok (rootOf basePack))) (some (.ok (rootOf basePack.reverse))) :=
    ⟨_, .refl _, .cons ⟨rfl, (List.reverse_perm _).symm⟩ .nil⟩
  exact build_ignores_listing_order hsame id none ⟨[], none, none⟩

/-! ## What is at fault -/

/-- The name is a text that begins with the number. -/
def Numbered (digits : Text) (name : FileName) : Prop := ∃ text, fromUtf8 name = some text ∧
    numericStart text = some digits

/-- Why a SQL file is not taken: its name is no text, or it cannot be read, or what is read is no text. -/
inductive FileFault (dir : List FileName) (name : FileName) (content : Except Text Bytes) : ContentError → Prop where
  | name (hname : fromUtf8 name = none) : FileFault dir name content (.nonUtf8Path (dir ++ [name]))
  | read {message : Text} (hread : content = .error message) : FileFault dir name content (.io message)
  | text {bytes : Bytes} (hread : content = .ok bytes) (htext : fromUtf8 bytes = none) :
    FileFault dir name content (.io notText)

/-- The file is one of the SQL files of a pack. -/
def IsSqlFile (files : Except Text (Listing PackEntry)) (name : FileName) (content : Except Text Bytes) : Prop :=
  ∃ listing, files = .ok listing ∧ (name, PackEntry.file content) ∈ listing.entries ∧
    (extension name).bind fromUtf8 = some "sql".toList

/-- Why a pack is not taken: its name is no text, or it cannot be listed, or two of its SQL files begin with the same
number, or one of them is not taken. -/
inductive PackFault (pack : FileName) (files : Except Text (Listing PackEntry)) : ContentError → Prop where
  | name (hname : fromUtf8 pack = none) : PackFault pack files (.nonUtf8Path [pack])
  | list {message : Text} (hlist : files = .error message) : PackFault pack files (.io message)
  | numbers {packName digits : Text} {a b : FileName} {content content' : Except Text Bytes}
    (hname : fromUtf8 pack = some packName)
      (ha : IsSqlFile files a content) (hb : IsSqlFile files b content') (hne : a ≠ b) (hda : Numbered digits a)
      (hdb : Numbered digits b) : PackFault pack files (.duplicatePrefix ("pack ".toList ++ packName) digits)
  | file {name : FileName} {content : Except Text Bytes} {e : ContentError} (hfile : IsSqlFile files name content)
      (hfault : FileFault [pack] name content e) : PackFault pack files e

/-- The directory is one of the packs. -/
def IsPack (root : Except Text (Listing RootEntry)) (pack : FileName) (files : Except Text (Listing PackEntry)) :
    Prop :=
  ∃ listing, root = .ok listing ∧ (pack, RootEntry.dir files) ∈ listing.entries

/-- Why nothing is found: the root cannot be listed, or two packs begin with the same number, or one of them is not
taken. -/
inductive Fault (root : Except Text (Listing RootEntry)) : ContentError → Prop where
  | list {message : Text} (hlist : root = .error message) : Fault root (.io message)
  | numbers {digits : Text} {a b : FileName} {files files' : Except Text (Listing PackEntry)} (ha : IsPack root a files)
      (hb : IsPack root b files') (hne : a ≠ b) (hda : Numbered digits a) (hdb : Numbered digits b) :
      Fault root (.duplicatePrefix "data/content packs".toList digits)
  | pack {pack : FileName} {files : Except Text (Listing PackEntry)} {e : ContentError} (hpack : IsPack root pack files)
      (hfault : PackFault pack files e) : Fault root e

theorem reports_fileNameString (dir : List FileName) (name : FileName) :
    Reports (fun e => fromUtf8 name = none ∧ e = .nonUtf8Path (dir ++ [name])) (fun text => fromUtf8 name = some text)
      (fileNameString dir name) := by
  unfold fileNameString
  cases fromUtf8 name with
  | none => exact .error ⟨rfl, rfl⟩
  | some text => exact .ok rfl (by simp)

theorem reports_readDir {α : Type} (listing : Except Text α) :
    Reports (fun e => ∃ message, listing = .error message ∧ e = .io message) (fun a => listing = .ok a)
      (readDir listing) := by
  cases listing with
  | error message => exact .error ⟨message, rfl, rfl⟩
  | ok a => exact .ok rfl (by simp)

/-- Two of the names begin with the number. -/
def Clash (names : List FileName) (digits : Text) : Prop := ∃ a b, [a, b].Sublist names ∧ Numbered digits a ∧
    Numbered digits b

theorem clash_cons (name : FileName) (names : List FileName) (digits : Text) :
    Clash (name :: names) digits ↔ Clash names digits ∨ Numbered digits name ∧ ∃ other ∈ names,
      Numbered digits other := by
  unfold Clash
  simp only [List.cons_sublist_cons', List.singleton_sublist]
  constructor
  · rintro ⟨a, b, hsub | ⟨rfl, hb⟩, hda, hdb⟩
    · exact .inl ⟨a, b, hsub, hda, hdb⟩
    · exact .inr ⟨hda, b, hb, hdb⟩
  · rintro (⟨a, b, hsub, hda, hdb⟩ | ⟨hda, b, hb, hdb⟩)
    · exact ⟨a, b, .inl hsub, hda, hdb⟩
    · exact ⟨name, b, .inr ⟨rfl, hb⟩, hda, hdb⟩

theorem clash_iff {names : List FileName} (hdistinct : names.Nodup) (digits : Text) :
    Clash names digits ↔ ∃ a ∈ names, ∃ b ∈ names, a ≠ b ∧ Numbered digits a ∧ Numbered digits b := by
  constructor
  · rintro ⟨a, b, hsub, hda, hdb⟩
    have hne : a ≠ b := by simpa using hdistinct.sublist hsub
    exact ⟨a, hsub.subset (by simp), b, hsub.subset (by simp), hne, hda, hdb⟩
  · rintro ⟨a, ha, b, hb, hne, hda, hdb⟩
    by_contra hclash
    have hapart : names.Pairwise fun a b => ¬(Numbered digits a ∧ Numbered digits b) := by
      rw [List.pairwise_iff_forall_sublist]
      intro a b hsub h
      exact hclash ⟨a, b, hsub, h.1, h.2⟩
    have hsymm : Std.Symm fun a b => ¬(Numbered digits a ∧ Numbered digits b) := ⟨fun a b h h' => h ⟨h'.2, h'.1⟩⟩
    exact hapart.forall ha hb hne ⟨hda, hdb⟩

theorem reports_ensureUniqueFrom (dir : List FileName) (scope : Text) (names : List FileName) : ∀ seen,
    Reports (fun e => (∃ name ∈ names, fromUtf8 name = none ∧ e = .nonUtf8Path (dir ++ [name])) ∨
        ∃ digits, (Clash names digits ∨ digits ∈ seen ∧ ∃ name ∈ names, Numbered digits name) ∧
          e = .duplicatePrefix scope digits)
      (fun _ => True) (ensureUniqueFrom dir scope seen names) := by
  induction names with
  | nil =>
    intro seen
    exact .ok trivial (by simp [Clash])
  | cons name names ih =>
    intro seen
    unfold ensureUniqueFrom
    refine (reports_fileNameString dir name).bind ?_ ?_
    · rintro _ ⟨hnone, rfl⟩
      exact .inl ⟨name, List.mem_cons_self, hnone, rfl⟩
    intro fileName hname _
    have hnumbered : ∀ digits, Numbered digits name ↔ numericStart fileName = some digits := by
      intro digits
      simp [Numbered, hname]
    simp only [clash_cons, List.exists_mem_cons_iff, hnumbered, hname]
    cases hstart : numericStart fileName with
    | none => simpa using ih seen
    | some digits =>
      dsimp only
      split
      · rename_i hseen
        exact .error (.inr ⟨digits, .inr ⟨List.contains_iff_mem.1 hseen, .inl rfl⟩, rfl⟩)
      · rename_i hfresh
        have hnew : digits ∉ seen := mt List.contains_iff_mem.2 hfresh
        refine (ih (digits :: seen)).weaken ?_ fun _ h => h
        intro e
        simp only [reduceCtorEq, false_and, false_or]
        refine or_congr_right (exists_congr fun d => and_congr_left fun _ => ?_)
        rw [List.mem_cons, Option.some.injEq, eq_comm (a := d)]
        by_cases hd : digits = d
        · subst hd
          simp [hnew]
        · simp [hd]

theorem reports_ensureUniqueNumericPrefixes (dir : List FileName) (scope : Text) {names : List FileName}
    (hdistinct : names.Nodup) :
    Reports (fun e => (∃ name ∈ names, fromUtf8 name = none ∧ e = .nonUtf8Path (dir ++ [name])) ∨
        ∃ digits, (∃ a ∈ names, ∃ b ∈ names, a ≠ b ∧ Numbered digits a ∧ Numbered digits b) ∧
          e = .duplicatePrefix scope digits)
      (fun _ => True) (ensureUniqueNumericPrefixes dir names scope) := by
  refine (reports_ensureUniqueFrom dir scope names []).weaken ?_ fun _ h => h
  intro e
  simp [clash_iff hdistinct]

/-! ## What is found -/

section
variable (engine : Engine T)

/-- The migration is the SQL file of that name and content. -/
def IsFile (packName : Text) (name : FileName) (content : Except Text Bytes) (migration : DiscoveredMigration) : Prop :=
  ∃ fileName bytes sql, fromUtf8 name = some fileName ∧ content = .ok bytes ∧ fromUtf8 bytes = some sql ∧
    migration = ⟨packName ++ ['/'] ++ fileName, engine.hashText sql, sql⟩

/-- The migration is one of the SQL files of the pack. -/
def IsFileIn (pack : FileName) (files : Except Text (Listing PackEntry)) (migration : DiscoveredMigration) : Prop :=
  ∃ packName, fromUtf8 pack = some packName ∧
    ∃ name content, IsSqlFile files name content ∧ IsFile engine packName name content migration

/-- The migration is one of the SQL files of the packs. -/
def IsFileOf (root : Except Text (Listing RootEntry)) (migration : DiscoveredMigration) : Prop :=
  ∃ pack files, IsPack root pack files ∧ IsFileIn engine pack files migration

end

section
variable {engine : Engine T}

theorem reports_discoverFile (pack : FileName) (packName : Text) (file : FileName × Except Text Bytes) :
    Reports (FileFault [pack] file.1 file.2) (IsFile engine packName file.1 file.2)
      (discoverFile engine pack packName file) := by
  obtain ⟨name, content⟩ := file
  unfold discoverFile fileNameString
  dsimp only
  cases hname : fromUtf8 name with
  | none => exact .error (.name hname)
  | some fileName =>
    cases content with
    | error message => exact .error (.read rfl)
    | ok bytes =>
      simp only [readToString, Except.mapError, bind, Except.bind]
      cases hsql : fromUtf8 bytes with
      | none => exact .error (.text rfl hsql)
      | some sql =>
        refine .ok ⟨fileName, bytes, sql, hname, rfl, hsql, rfl⟩ ?_
        intro e hfault
        cases hfault with
        | name hnone => cases hname.symm.trans hnone
        | read hread => cases hread
        | text hread htext =>
          cases hread
          cases hsql.symm.trans htext

theorem mem_packs {root : Listing RootEntry} {pack : FileName} {files : Except Text (Listing PackEntry)} :
    (pack, files) ∈ root.entries.filterMap packDir ↔ (pack, RootEntry.dir files) ∈ root.entries := by
  rw [List.mem_filterMap]
  constructor
  · rintro ⟨⟨name, kind⟩, hmem, hpack⟩
    cases kind with
    | other => cases hpack
    | dir _ =>
      cases hpack
      exact hmem
  · intro hmem
    exact ⟨_, hmem, rfl⟩

theorem mem_sqlFiles {files : Listing PackEntry} {name : FileName} {content : Except Text Bytes} :
    (name, content) ∈ files.entries.filterMap sqlFile ↔ IsSqlFile (.ok files) name content := by
  rw [List.mem_filterMap]
  constructor
  · rintro ⟨⟨other, kind⟩, hmem, hfile⟩
    cases kind with
    | other => cases hfile
    | file text =>
      unfold sqlFile at hfile
      dsimp only at hfile
      split at hfile
      · rename_i hext
        cases hfile
        exact ⟨files, rfl, hmem, hext⟩
      · cases hfile
  · rintro ⟨_, ⟨⟩, hmem, hext⟩
    refine ⟨_, hmem, ?_⟩
    unfold sqlFile
    dsimp only
    rw [if_pos hext]

theorem utf8_of_fromUtf8 {bytes : Bytes} {text : Text} (h : fromUtf8 bytes = some text) : utf8 text = bytes := by
  obtain ⟨chars, hchars, rfl⟩ := Option.map_eq_some_iff.1 h
  have hsome : (ByteArray.mk bytes.toArray).utf8Decode?.isSome := by
    rw [hchars]
    rfl
  have hget : (ByteArray.mk bytes.toArray).utf8Decode?.get hsome = chars := Option.get_of_eq_some _ hchars
  have hencode := ByteArray.utf8Encode_get_utf8Decode? (h := hsome)
  rw [hget] at hencode
  have hdata := congrArg (fun b => b.data.toList) hencode
  show chars.toList.flatMap String.utf8EncodeChar = bytes
  simpa [List.utf8Encode] using hdata

theorem IsFile.unique {packName : Text} {name : FileName} {content : Except Text Bytes} {m m' : DiscoveredMigration}
    (h : IsFile engine packName name content m) (h' : IsFile engine packName name content m') : m = m' := by
  obtain ⟨fileName, bytes, sql, hname, rfl, hsql, rfl⟩ := h
  obtain ⟨fileName', bytes', sql', hname', hread, hsql', rfl⟩ := h'
  cases hread
  cases hname.symm.trans hname'
  cases hsql.symm.trans hsql'
  rfl

/-- Files of one pack with one id have one name. -/
theorem IsFile.name_eq {packName : Text} {a b : FileName} {content content' : Except Text Bytes}
    {m m' : DiscoveredMigration} (h : IsFile engine packName a content m) (h' : IsFile engine packName b content' m')
    (hid : m.id = m'.id) : a = b := by
  obtain ⟨fileName, _, _, hname, -, -, rfl⟩ := h
  obtain ⟨fileName', _, _, hname', -, -, rfl⟩ := h'
  obtain rfl : fileName = fileName' := List.append_cancel_left hid
  rw [← utf8_of_fromUtf8 hname, utf8_of_fromUtf8 hname']

theorem reports_discoverPack (pack : FileName × Except Text (Listing PackEntry)) :
    Reports (PackFault pack.1 pack.2)
      (fun found => (∀ m, m ∈ found ↔ IsFileIn engine pack.1 pack.2 m) ∧ (found.map (·.id)).Nodup)
      (discoverPack engine pack) := by
  obtain ⟨name, files⟩ := pack
  unfold discoverPack
  refine (reports_fileNameString [] name).bind ?_ ?_
  · rintro _ ⟨hnone, rfl⟩
    exact .name hnone
  intro packName hname _
  refine (reports_readDir files).bind ?_ ?_
  · rintro _ ⟨message, hlist, rfl⟩
    exact .list hlist
  rintro listing hlisting -
  subst hlisting
  have hmem : ∀ file content, (file, content) ∈ sortByName (listing.entries.filterMap sqlFile) ↔
      IsSqlFile (.ok listing) file content := fun _ _ => (perm_sortByName _).mem_iff.trans mem_sqlFiles
  have hfiles : ∀ file ∈ (sortByName (listing.entries.filterMap sqlFile)).map (·.1), ∃ content,
      IsSqlFile (.ok listing) file content := by
    intro file hfile
    obtain ⟨⟨_, content⟩, hin, rfl⟩ := List.mem_map.1 hfile
    exact ⟨content, (hmem _ _).1 hin⟩
  have hdistinct := nodup_sortByName (distinct_files listing)
  refine (reports_ensureUniqueNumericPrefixes [name] _ hdistinct).bind ?_ ?_
  · rintro _ (⟨file, hfile, hnone, rfl⟩ | ⟨digits, ⟨a, ha, b, hb, hne, hda, hdb⟩, rfl⟩)
    · obtain ⟨content, hsql⟩ := hfiles file hfile
      exact .file hsql (.name hnone)
    · obtain ⟨content, hsql⟩ := hfiles a ha
      obtain ⟨content', hsql'⟩ := hfiles b hb
      exact .numbers hname hsql hsql' hne hda hdb
  intro _ _ hnumbers
  refine (Reports.mapM fun file _ => reports_discoverFile name packName file).weaken ?_ ?_
  · intro e
    constructor
    · rintro ⟨⟨file, content⟩, hin, hfault⟩
      exact .file ((hmem _ _).1 hin) hfault
    · intro hfault
      cases hfault with
      | name hnone => cases hname.symm.trans hnone
      | list hlist => cases hlist
      | @numbers _ digits a b _ _ _ ha hb hne hda hdb =>
        have hina := List.mem_map_of_mem (f := Prod.fst) ((hmem _ _).2 ha)
        have hinb := List.mem_map_of_mem (f := Prod.fst) ((hmem _ _).2 hb)
        exact absurd (.inr ⟨digits, ⟨a, hina, b, hinb, hne, hda, hdb⟩, rfl⟩) (hnumbers _)
      | file hfile hfault => exact ⟨(_, _), (hmem _ _).2 hfile, hfault⟩
  · intro found hall
    constructor
    · intro m
      rw [mem_right_iff (fun _ _ _ h h' => h.unique h') hall]
      constructor
      · rintro ⟨⟨file, content⟩, hin, hfile⟩
        exact ⟨packName, hname, file, content, (hmem _ _).1 hin, hfile⟩
      · rintro ⟨packName', hname', file, content, hsql, hfile⟩
        cases hname.symm.trans hname'
        exact ⟨(file, content), (hmem _ _).2 hsql, hfile⟩
    · refine List.pairwise_map.2 (pairwise_right ?_ hall (List.pairwise_map.1 hdistinct))
      intro a b c d hc hd hne hid
      exact hne (hc.name_eq hd hid)

/-- What a pack gives has ids that begin with its name. -/
theorem IsFileIn.pack_eq {pack : FileName} {files : Except Text (Listing PackEntry)} {m : DiscoveredMigration}
    (h : IsFileIn engine pack files m) (hplain : slash ∉ pack) : utf8 (m.id.takeWhile (· ≠ '/')) = pack := by
  obtain ⟨packName, hname, _, _, -, fileName, _, _, -, -, -, rfl⟩ := h
  have hslash : '/' ∉ packName := by
    intro hmem
    rw [← utf8_of_fromUtf8 hname] at hplain
    exact hplain (List.mem_flatMap.2 ⟨'/', hmem, by decide +kernel⟩)
  rw [← utf8_of_fromUtf8 hname]
  show utf8 ((packName ++ ['/'] ++ fileName).takeWhile (· ≠ '/')) = _
  rw [List.append_assoc, List.takeWhile_append_of_pos]
  · simp
  · intro ch hch
    simp only [ne_eq, decide_not, Bool.not_eq_eq_eq_not, Bool.not_true, decide_eq_false_iff_not]
    rintro rfl
    exact hslash hch

/-- The ids of all packs are distinct, since no name has a slash. -/
theorem nodup_ids {listing : Listing RootEntry} {out : List (List DiscoveredMigration)}
    (hall : List.Forall₂ (fun pack found => (∀ m, m ∈ found ↔ IsFileIn engine pack.1 pack.2 m) ∧
      (found.map (·.id)).Nodup) (sortByName (listing.entries.filterMap packDir)) out) :
    (out.flatten.map (·.id)).Nodup := by
  have hpacks : (sortByName (listing.entries.filterMap packDir)).Pairwise fun a b => a.1 ≠ b.1 ∧ slash ∉ a.1 ∧
      slash ∉ b.1 := by
    have hnodup := List.pairwise_map.1 (nodup_sortByName (distinct_packs listing))
    refine hnodup.imp_of_mem ?_
    intro a b ha hb hne
    have hplain : ∀ pack ∈ sortByName (listing.entries.filterMap packDir), slash ∉ pack.1 := by
      intro pack hpack
      exact listing.plain _ (mem_packs.1 ((perm_sortByName _).mem_iff.1 hpack))
    exact ⟨hne, hplain a ha, hplain b hb⟩
  rw [List.map_flatten, List.nodup_flatten]
  constructor
  · intro ids hids
    obtain ⟨found, hfound, rfl⟩ := List.mem_map.1 hids
    obtain ⟨_, -, -, hnodup⟩ := exists_of_mem_right hall hfound
    exact hnodup
  · refine List.pairwise_map.2 (pairwise_right ?_ hall hpacks)
    rintro a b found found' ⟨hfound, -⟩ ⟨hfound', -⟩ ⟨hne, ha, hb⟩ id hid hid'
    obtain ⟨m, hm, rfl⟩ := List.mem_map.1 hid
    obtain ⟨m', hm', hsame⟩ := List.mem_map.1 hid'
    have heq := ((hfound' m').1 hm').pack_eq hb
    rw [show m'.id = m.id from hsame, ((hfound m).1 hm).pack_eq ha] at heq
    exact hne heq

theorem reports_discoverPrivateMigrations (engine : Engine T) (root : Except Text (Listing RootEntry)) :
    Reports (Fault root) (fun migrations => migrations.Pairwise (fun a b => a.id < b.id) ∧
      ∀ migration, migration ∈ migrations ↔ IsFileOf engine root migration)
        (discoverPrivateMigrations engine (some root)) := by
  unfold discoverPrivateMigrations
  dsimp only
  refine (reports_readDir root).bind ?_ ?_
  · rintro _ ⟨message, hlist, rfl⟩
    exact .list hlist
  rintro listing hlisting -
  subst hlisting
  have hmem : ∀ pack files, (pack, files) ∈ sortByName (listing.entries.filterMap packDir) ↔
      IsPack (.ok listing) pack files := by
    intro pack files
    rw [(perm_sortByName _).mem_iff, mem_packs]
    exact ⟨fun hin => ⟨listing, rfl, hin⟩, by rintro ⟨_, ⟨⟩, hin⟩; exact hin⟩
  have hpacks : ∀ pack ∈ (sortByName (listing.entries.filterMap packDir)).map (·.1), ∃ files,
      IsPack (.ok listing) pack files := by
    intro pack hpack
    obtain ⟨⟨_, files⟩, hin, rfl⟩ := List.mem_map.1 hpack
    exact ⟨files, (hmem _ _).1 hin⟩
  have hdistinct := nodup_sortByName (distinct_packs listing)
  refine (reports_ensureUniqueNumericPrefixes [] _ hdistinct).bind ?_ ?_
  · rintro _ (⟨pack, hpack, hnone, rfl⟩ | ⟨digits, ⟨a, ha, b, hb, hne, hda, hdb⟩, rfl⟩)
    · obtain ⟨files, hfiles⟩ := hpacks pack hpack
      exact .pack hfiles (.name hnone)
    · obtain ⟨files, hfiles⟩ := hpacks a ha
      obtain ⟨files', hfiles'⟩ := hpacks b hb
      exact .numbers hfiles hfiles' hne hda hdb
  intro _ _ hnumbers
  refine (Reports.mapM fun pack _ => reports_discoverPack pack).bind ?_ ?_
  · rintro e ⟨⟨pack, files⟩, hin, hfault⟩
    exact .pack ((hmem _ _).1 hin) hfault
  intro out hall hpackFaults
  refine .ok ⟨?_, ?_⟩ ?_
  · have htotal : Std.Total fun a b : DiscoveredMigration => a.id ≤ b.id := ⟨fun a b => le_total a.id b.id⟩
    have htrans : IsTrans DiscoveredMigration fun a b => a.id ≤ b.id := ⟨fun _ _ _ => le_trans⟩
    have hsorted := List.pairwise_insertionSort (fun a b : DiscoveredMigration => a.id ≤ b.id) out.flatten
    have hids := ((List.perm_insertionSort (fun a b : DiscoveredMigration => a.id ≤ b.id) _).map
      (fun m : DiscoveredMigration => m.id)).nodup_iff.2 (nodup_ids hall)
    exact hsorted.imp₂ (fun _ _ hle hne => lt_of_le_of_ne hle hne) (List.pairwise_map.1 hids)
  · intro migration
    rw [(List.perm_insertionSort _ _).mem_iff, List.mem_flatten]
    constructor
    · rintro ⟨found, hfound, hin⟩
      obtain ⟨⟨pack, files⟩, hpack, hfiles, -⟩ := exists_of_mem_right hall hfound
      exact ⟨pack, files, (hmem _ _).1 hpack, (hfiles migration).1 hin⟩
    · rintro ⟨pack, files, hpack, hin⟩
      obtain ⟨found, hfound, hfiles, -⟩ := exists_of_mem_right hall.flip ((hmem _ _).2 hpack)
      exact ⟨found, hfound, (hfiles migration).2 hin⟩
  · intro e hfault
    cases hfault with
    | list hlist => cases hlist
    | @numbers digits a b _ _ ha hb hne hda hdb =>
      have hina := List.mem_map_of_mem (f := Prod.fst) ((hmem _ _).2 ha)
      have hinb := List.mem_map_of_mem (f := Prod.fst) ((hmem _ _).2 hb)
      exact hnumbers _ (.inr ⟨digits, ⟨a, hina, b, hinb, hne, hda, hdb⟩, rfl⟩)
    | pack hpack hfault => exact hpackFaults _ ⟨(_, _), (hmem _ _).2 hpack, hfault⟩

end

/-- Discovery finds exactly the SQL files of the packs, each once and by ascending id, just where nothing is at fault;
otherwise it returns one of the faults: a root, a pack or a SQL file that cannot be read, a name or a text that is not
Unicode, or two packs, or two SQL files of one pack, that begin with the same number. -/
theorem private_data_discovered (engine : Engine T) (root : Except Text (Listing RootEntry)) :
    ((∀ e, ¬Fault root e) ∧ ∃ migrations, discoverPrivateMigrations engine (some root) = .ok migrations ∧
      migrations.Pairwise (fun a b => a.id < b.id) ∧ ∀ migration, migration ∈ migrations ↔
        IsFileOf engine root migration) ∨
    ∃ e, Fault root e ∧ discoverPrivateMigrations engine (some root) = .error e := by
  have hreports := reports_discoverPrivateMigrations engine root
  generalize discoverPrivateMigrations engine (some root) = found at hreports
  cases hreports with
  | ok ha hnone => exact .inl ⟨hnone, _, rfl, ha⟩
  | error he => exact .inr ⟨_, he, rfl⟩

example : discoverPrivateMigrations journal (some (.ok (rootOf basePack))) =
    .ok [⟨"010_base/0001__seed.sql".toList, "ONE".toList, "ONE".toList⟩,
      ⟨"010_base/0002__more.sql".toList, "TWO".toList, "TWO".toList⟩] := by
  decide +kernel

end Zohar.Content
