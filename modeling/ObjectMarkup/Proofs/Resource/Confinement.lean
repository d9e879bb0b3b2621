import ObjectMarkup.Resource.FileTree

namespace ObjectMarkup

/-- What can be relied upon of a disk: what leads to nothing cannot be read and is no file. -/
structure FileSystem.Consistent (disk : FileSystem) : Prop where
  unread : ∀ path, disk.canonicalize path = none → ∃ failure, disk.read path = .error failure
  noFile : ∀ path, disk.canonicalize path = none → disk.isFile path = false

namespace Path

/-- The location is that of a directory or leads on from it, part by part. -/
def Inside (directory location : String) : Prop :=
  ∃ below, parts location = parts directory ++ below

/-- A path that leads out by its own words: less the dots that it starts with, each with its slash, it
starts from the root of the disk or has a double dot for a part. -/
def LeadsOut (path : String) : Prop :=
  ∃ dots rest, path.toList = (List.replicate dots ['.', '/']).flatten ++ rest ∧
    ¬['.', '/'] <+: rest ∧ (rest.head? = some '/' ∨ ['.', '.'] ∈ Text.pieces '/' rest)

theorem isBelow_iff {directory location : String} :
    isBelow directory location = true ↔ Inside directory location := by
  rw [isBelow, List.isPrefixOf_iff_prefix]
  constructor
  · intro h
    obtain ⟨below, hbelow⟩ := h
    exact ⟨below, hbelow.symm⟩
  · intro h
    obtain ⟨below, hbelow⟩ := h
    exact ⟨below, hbelow.symm⟩

end Path

namespace DocumentRoot

open ObjectMarkup.Path

variable {root : DocumentRoot} {disk : FileSystem} {path canonical target : String}

theorem dropDots_of_not_prefix {cs : List Char} (h : ¬['.', '/'] <+: cs) : dropDots cs = cs := by
  unfold dropDots
  split
  · exact absurd (List.prefix_append ['.', '/'] _) h
  · rfl

theorem dropDots_append (dots : Nat) (cs : List Char) :
    dropDots ((List.replicate dots ['.', '/']).flatten ++ cs) = dropDots cs := by
  induction dots with
  | zero => rfl
  | succ dots ih => simp [List.replicate_succ, dropDots, ih]

theorem exists_dots (cs : List Char) :
    ∃ dots, cs = (List.replicate dots ['.', '/']).flatten ++ dropDots cs ∧
      ¬['.', '/'] <+: dropDots cs := by
  fun_induction dropDots cs with
  | case1 rest ih =>
    obtain ⟨dots, hrest, hprefix⟩ := ih
    refine ⟨dots + 1, ?_, hprefix⟩
    simpa [List.replicate_succ] using hrest
  | case2 cs hcs =>
    refine ⟨0, rfl, ?_⟩
    intro hprefix
    obtain ⟨rest, hrest⟩ := hprefix
    exact hcs rest hrest.symm

theorem mem_parts_doubleDot {path : String} :
    ['.', '.'] ∈ parts path ↔ ['.', '.'] ∈ Text.pieces '/' path.toList := by
  simp [parts]

theorem isForeign_relative_iff : isForeign (relative path) = true ↔ LeadsOut path := by
  have hforeign : isForeign (relative path) = true ↔ (dropDots path.toList).head? = some '/' ∨
      ['.', '.'] ∈ Text.pieces '/' (dropDots path.toList) := by
    simp [isForeign, isAbsolute, relative, mem_parts_doubleDot]
  rw [hforeign]
  constructor
  · intro h
    obtain ⟨dots, hpath, hprefix⟩ := exists_dots path.toList
    exact ⟨dots, _, hpath, hprefix, h⟩
  · intro h
    obtain ⟨dots, rest, hpath, hprefix, h⟩ := h
    rwa [hpath, dropDots_append, dropDots_of_not_prefix hprefix]

theorem locate_of_leadsOut (h : LeadsOut path) (root : DocumentRoot) (disk : FileSystem) :
    root.locate disk path = none := by
  simp only [locate, isForeign_relative_iff.mpr h, if_true]

theorem locate_of_none (h : ¬LeadsOut path)
    (hnone : disk.canonicalize (join root.path (relative path)) = none) :
    root.locate disk path = some (join root.path (relative path)) := by
  have hforeign : isForeign (relative path) = false := by
    rw [Bool.eq_false_iff]
    exact fun hf => h (isForeign_relative_iff.mp hf)
  simp only [locate, hforeign, Bool.false_eq_true, if_false, hnone]

theorem locate_of_some (h : ¬LeadsOut path) (hroot : root.canonical = some canonical)
    (hsome : disk.canonicalize (join root.path (relative path)) = some target) :
    root.locate disk path = if isBelow canonical target then some target else none := by
  have hforeign : isForeign (relative path) = false := by
    rw [Bool.eq_false_iff]
    exact fun hf => h (isForeign_relative_iff.mp hf)
  simp only [locate, hforeign, Bool.false_eq_true, if_false, hsome, hroot]

/-- What is done with a path that is found to lead somewhere: whatever holds of no path that leads to
nothing, holds of what a path leads to only inside the root. -/
theorem exists_locate_iff {P : String → Prop} (hP : ∀ p, disk.canonicalize p = none → ¬P p)
    (hroot : root.canonical = some canonical) :
    (∃ p, root.locate disk path = some p ∧ P p) ↔ ¬LeadsOut path ∧
      ∃ target, disk.canonicalize (join root.path (relative path)) = some target ∧
        Inside canonical target ∧ P target := by
  by_cases hout : LeadsOut path
  · simp [locate_of_leadsOut hout, hout]
  · cases hfull : disk.canonicalize (join root.path (relative path)) with
    | none => simp [locate_of_none hout hfull, hP _ hfull]
    | some target =>
      rw [locate_of_some hout hroot hfull]
      by_cases hbelow : isBelow canonical target = true
      · simp [hbelow, isBelow_iff.mp hbelow, hout]
      · have hinside : ¬Inside canonical target := fun h => hbelow (isBelow_iff.mpr h)
        simp [hbelow, hinside]

theorem load_eq_ok {bytes : Bytes} : root.load disk path = .ok bytes ↔
    ∃ p, root.locate disk path = some p ∧ disk.read p = .ok bytes := by
  unfold load
  cases root.locate disk path with
  | none => simp
  | some p =>
    have hsame : (disk.read p).mapError (failure path) = .ok bytes ↔ disk.read p = .ok bytes := by
      cases disk.read p with
      | ok found => constructor <;> (rintro ⟨⟩; rfl)
      | error e => constructor <;> rintro ⟨⟩
    simp [hsame]

theorem holds_eq_true : root.holds disk path = true ↔
    ∃ p, root.locate disk path = some p ∧ disk.isFile p = true := by
  unfold holds
  cases root.locate disk path <;> simp

end DocumentRoot

theorem FileTree.consistent (t : FileTree) : t.fileSystem.Consistent := by
  have hread : ∀ path, t.fileSystem.canonicalize path = none →
      ∃ failure, t.read path = .error failure := by
    intro path h
    cases hfind : t.find path with
    | error failure => exact ⟨failure, by simp [read, hfind]⟩
    | ok found => simp [fileSystem, hfind] at h
  refine ⟨hread, fun path h => ?_⟩
  obtain ⟨failure, hfailure⟩ := hread path h
  simp [fileSystem, hfailure]

open ObjectMarkup.Path DocumentRoot

/-- A root directory that is there when it is named holds its documents: a path gives bytes exactly
where it does not lead out by its own words, leads somewhere inside the directory that the root led
to, and these are the bytes there; and it is told to be a document exactly where what it so leads to
is a file. A path that leads out by its own words is reported as missing, whatever is on the disk. -/
theorem documents_confined {created disk : FileSystem} (hdisk : disk.Consistent)
    {directory canonical : String} (hroot : created.canonicalize directory = some canonical)
    (path : String) :
    let root := DocumentRoot.named created directory
    let leadsTo := disk.canonicalize (join directory (relative path))
    (∀ bytes, root.load disk path = .ok bytes ↔ ¬LeadsOut path ∧
      ∃ target, leadsTo = some target ∧ Inside canonical target ∧ disk.read target = .ok bytes) ∧
    (root.holds disk path = true ↔ ¬LeadsOut path ∧
      ∃ target, leadsTo = some target ∧ Inside canonical target ∧ disk.isFile target = true) ∧
    (LeadsOut path → ∀ other, root.load other path =
      .error (.notFound (path ++ " (outside document root)")) ∧ root.holds other path = false) := by
  intro root leadsTo
  refine ⟨fun bytes => ?_, ?_, fun hout other => ?_⟩
  · rw [load_eq_ok, exists_locate_iff (fun p hp hread => ?_) hroot]
    · rfl
    · obtain ⟨failure, hfailure⟩ := hdisk.unread p hp
      rw [hfailure] at hread
      cases hread
  · rw [holds_eq_true, exists_locate_iff (fun p hp hfile => ?_) hroot]
    · rfl
    · rw [hdisk.noFile p hp] at hfile
      cases hfile
  · have hlocate := locate_of_leadsOut hout root other
    exact ⟨by rw [load, hlocate]; rfl, by rw [holds, hlocate]⟩

/-- A directory that is reached through a link, with a link in it to a directory beside it, whose name
begins with its own. -/
theorem documents_confined_of_link :
    let page := Text.encode "<HashMap/>".toList
    let t := (((FileTree.empty.put "/srv/docs/ui/main.wtkx" (.file page)).put "/srv/docs-old/main.wtkx"
      (.file page)).put "/srv/docs/old" (.link "../docs-old")).put "/srv/current" (.link "docs")
    let root := DocumentRoot.named t.fileSystem "/srv/current"
    t.fileSystem.Consistent ∧ t.fileSystem.canonicalize "/srv/current" = some "/srv/docs" ∧
      root.load t.fileSystem "././ui//main.wtkx" = .ok page ∧
      root.holds t.fileSystem "ui" = false ∧
      (∀ bytes, root.load t.fileSystem "old/main.wtkx" ≠ .ok bytes) ∧
      root.load t.fileSystem ".//srv/docs/ui/main.wtkx" =
        .error (.notFound ".//srv/docs/ui/main.wtkx (outside document root)") := by
  intro page t root
  have hroot : t.fileSystem.canonicalize "/srv/current" = some "/srv/docs" := by decide +kernel
  obtain ⟨hpage, -, -⟩ := documents_confined t.consistent hroot "././ui//main.wtkx"
  obtain ⟨-, hdirectory, -⟩ := documents_confined t.consistent hroot "ui"
  obtain ⟨hold, -, -⟩ := documents_confined t.consistent hroot "old/main.wtkx"
  obtain ⟨-, -, hout⟩ := documents_confined t.consistent hroot ".//srv/docs/ui/main.wtkx"
  refine ⟨t.consistent, hroot, (hpage page).mpr ⟨?_, "/srv/docs/ui/main.wtkx", ?_, ?_, ?_⟩, ?_, ?_, ?_⟩
  · rw [← isForeign_relative_iff]
    decide +kernel
  · decide +kernel
  · exact isBelow_iff.mp (by decide +kernel)
  · have hread : (t.fileSystem.read "/srv/docs/ui/main.wtkx").toOption = some page := by
      decide +kernel
    cases hbytes : t.fileSystem.read "/srv/docs/ui/main.wtkx" with
    | error failure =>
      rw [hbytes] at hread
      cases hread
    | ok bytes =>
      rw [hbytes] at hread
      rw [Option.some.inj hread]
  · rw [Bool.eq_false_iff]
    intro h
    obtain ⟨-, target, htarget, -, hfile⟩ := hdirectory.mp h
    have hui : t.fileSystem.canonicalize (join "/srv/current" (relative "ui")) =
        some "/srv/docs/ui" := by decide +kernel
    cases hui.symm.trans htarget
    have hnoFile : t.fileSystem.isFile "/srv/docs/ui" = false := by decide +kernel
    rw [hnoFile] at hfile
    cases hfile
  · intro bytes h
    obtain ⟨-, target, htarget, hinside, -⟩ := (hold bytes).mp h
    have hbeside : t.fileSystem.canonicalize (join "/srv/current" (relative "old/main.wtkx")) =
        some "/srv/docs-old/main.wtkx" := by decide +kernel
    cases hbeside.symm.trans htarget
    have houtside : isBelow "/srv/docs" "/srv/docs-old/main.wtkx" = false := by decide +kernel
    rw [isBelow_iff.mpr hinside] at houtside
    cases houtside
  · refine (hout (isForeign_relative_iff.mp ?_) t.fileSystem).1
    decide +kernel

end ObjectMarkup
