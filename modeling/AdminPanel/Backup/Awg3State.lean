import AdminPanel.Backup.Awg2State
import AdminPanel.Lib.PyText

/-!
# The state of an AmneziaWG 3 layer

`export_state_archive` and `import_state_archive` of `awg3_clients.py`: the six files of the layer.
The importer puts the files of the archive in place one by one.

* `Layer`, `exportStateArchive`, `importStateArchive` — as `awg3_clients.py` has them;
* `Copyable`, `exact_iff` — when an archive is copied exactly or not at all;
* `layers_exact_iff` — both layers, and archives that are refused.
-/

namespace AdminPanel.Backup.Layers.Awg3

open Lib (FileTree)
open Lib.PyText (strip)

/-! ## The layer -/

/-- `STATE_FILES` -/
inductive StateFile where
  | conf
  | clients
  | serverKey
  | serverPub
  | splitAllowed
  | mtu
  deriving DecidableEq, Repr

def StateFile.name : StateFile → FileName
  | .conf => ⟨"awg1.conf", by decide⟩
  | .clients => ⟨"clients.json", by decide⟩
  | .serverKey => ⟨"server.key", by decide⟩
  | .serverPub => ⟨"server.pub", by decide⟩
  | .splitAllowed => ⟨"split-allowed.txt", by decide⟩
  | .mtu => ⟨"mtu", by decide⟩

def stateFiles : List StateFile := [.conf, .clients, .serverKey, .serverPub, .splitAllowed, .mtu]

/-- The state files in the directory of a layer. -/
abbrev Layer := StateFile → Option Content

def stateBackupKind : String := "awg3-state"

def exportStateArchive (layer : Layer) : Except ImportError ArchiveData :=
  .ok (.members ((stateFiles.filterMap fun file => (layer file).map (.file [file.name])) ++
    [.file [manifestName] stateBackupKind.toList]))

/-- The file operation that fails. -/
inductive Fault where
  /-- The temporary directory, or a file that is written there. -/
  | extract
  | mkdir
  /-- The temporary copy of a file, its mode, or its move into place. -/
  | write (file : StateFile)
  deriving DecidableEq

def Member.isExpected : Member → Bool
  | .file path _ => path = [manifestName] || stateFiles.any fun file => path = [file.name]
  | .other _ => false

def Member.name : Member → String
  | .file path _ => "/".intercalate (path.map Subtype.val)
  | .other name => name

/-- The loop of `import_state_archive`: the files, and whether it returns. -/
def writeFiles (root : Tree) (fault : Option Fault) : List StateFile → Layer → Layer × Bool
  | [], layer => (layer, true)
  | file :: rest, layer =>
    match root.file? [file.name] with
    | none => writeFiles root fault rest layer
    | some content =>
      if fault = some (.write file) then (layer, false)
      else writeFiles root fault rest (Function.update layer file (some content))

/-- What `import_state_archive` does with the extracted files. -/
def replaceLayer (root : Tree) (layer : Layer) (fault : Option Fault) :
    Layer × Option ImportError :=
  if (root.file? [manifestName]).map strip ≠ some stateBackupKind.toList then
    (layer, some (.value ("AWG 3 backup MANIFEST kind must be " ++ stateBackupKind)))
  else if root.file? [StateFile.conf.name] = none then
    (layer, some (.value "AWG 3 backup has no awg1.conf"))
  else if fault = some .mkdir then (layer, some .os)
  else
    match writeFiles root fault stateFiles layer with
    | (layer, true) => (layer, none)
    | (layer, false) => (layer, some .os)

def importStateArchive (odd : List Member → Option Tree) (data : ArchiveData) (layer : Layer)
    (fault : Option Fault) : Layer × Option ImportError :=
  if data = .empty then (layer, some (.value "empty AWG 3 backup"))
  else if fault = some .extract then (layer, some .os)
  else
    match data with
    | .members ms =>
      match ms.find? (!Member.isExpected ·) with
      | some m =>
        (layer, some (.value ("unexpected member in AWG 3 backup: " ++ Member.name m)))
      | none =>
        match extractall odd ms with
        | some root => replaceLayer root layer fault
        | none => (layer, some .tar)
    | _ => (layer, some .tar)

/-- The source has a configuration and every file that the target has; what has been written when
an operation fails was there before. -/
def Copyable (source target : Layer) (fault : Option Fault) : Prop :=
  fault = some .extract ∨
    (source .conf).isSome = true ∧
      match fault with
      | some .mkdir => True
      | some (.write file) =>
        if (source file).isSome = true then
          ∀ earlier ∈ stateFiles.takeWhile (· ≠ file), (source earlier).isSome = true →
            target earlier = source earlier
        else ∀ other, source other = none → target other = none
      | _ => ∀ other, source other = none → target other = none

/-! ## What is archived -/

def entries (layer : Layer) : List (Path × Content) :=
  (stateFiles.filterMap fun file => (layer file).map ([file.name], ·)) ++
    [([manifestName], stateBackupKind.toList)]

theorem name_injective : Function.Injective StateFile.name := by
  intro file file' h
  revert h
  cases file <;> cases file' <;> decide

theorem name_ne_manifest (file : StateFile) : file.name ≠ manifestName := by
  cases file <;> decide

theorem mem_stateFiles (file : StateFile) : file ∈ stateFiles := by
  cases file <;> decide

theorem exportStateArchive_eq (layer : Layer) :
    exportStateArchive layer = .ok (.members ((entries layer).map fun e => .file e.1 e.2)) := by
  rw [exportStateArchive, entries]
  simp only [List.map_append, List.map_cons, List.map_nil, List.map_filterMap, Option.map_map,
    Function.comp_def]

theorem entries_apart (layer : Layer) :
    (entries layer).Pairwise fun e e' => Lib.Apart e.1 e'.1 := by
  have hNodup : stateFiles.Nodup := by decide
  refine List.pairwise_append.mpr ⟨?_, List.pairwise_singleton _ _, ?_⟩
  · refine List.Pairwise.filterMap _ ?_ hNodup
    intro file file' hNe e hE e' hE'
    obtain ⟨c, -, rfl⟩ := Option.map_eq_some_iff.mp hE
    obtain ⟨c', -, rfl⟩ := Option.map_eq_some_iff.mp hE'
    exact Lib.apart_of_head_ne (fun h => hNe (name_injective h)) _ _
  · intro e hE e' hE'
    obtain ⟨file, -, hFile⟩ := List.mem_filterMap.mp hE
    obtain ⟨c, -, rfl⟩ := Option.map_eq_some_iff.mp hFile
    rw [List.mem_singleton.mp hE']
    exact Lib.apart_of_head_ne (name_ne_manifest file) _ _

variable {layer : Layer} {file : StateFile}

theorem mem_entries {c : Content} : ([file.name], c) ∈ entries layer ↔ layer file = some c := by
  rw [entries, List.mem_append, List.mem_filterMap]
  constructor
  · rintro (⟨other, -, hOther⟩ | hManifest)
    · obtain ⟨c', hFile, hPair⟩ := Option.map_eq_some_iff.mp hOther
      obtain ⟨hName, rfl⟩ := Prod.mk.inj hPair
      rwa [← name_injective (List.cons.inj hName).1]
    · have hName := congrArg Prod.fst (List.mem_singleton.mp hManifest)
      exact absurd (List.cons.inj hName).1 (name_ne_manifest file)
  · intro hFile
    exact .inl ⟨file, mem_stateFiles file, by rw [hFile]; rfl⟩

theorem find?_unexpected (layer : Layer) :
    ((entries layer).map fun e => Layers.Member.file e.1 e.2).find? (!Member.isExpected ·) =
      none := by
  rw [List.find?_eq_none]
  intro m hMem
  obtain ⟨e, hE, rfl⟩ := List.mem_map.mp hMem
  rw [Bool.not_eq_true', Bool.not_eq_false]
  rcases List.mem_append.mp hE with hE | hE
  · obtain ⟨file, hIn, hFile⟩ := List.mem_filterMap.mp hE
    obtain ⟨c, -, rfl⟩ := Option.map_eq_some_iff.mp hFile
    simp only [Member.isExpected, Bool.or_eq_true, List.any_eq_true, decide_eq_true_eq]
    exact .inr ⟨file, hIn, rfl⟩
  · rw [List.mem_singleton.mp hE]
    rfl

variable {files : List StateFile}

section

variable {root : Tree} {source target layer : Layer} {fault : Option Fault}

/-- The layer with these files of the source. -/
def written (source : Layer) (files : List StateFile) (layer : Layer) : Layer := fun file =>
  if file ∈ files ∧ (source file).isSome = true then source file else layer file

theorem written_cons_none (h : source file = none) :
    written source (file :: files) layer = written source files layer := by
  funext other
  simp only [written, List.mem_cons]
  by_cases hOther : other = file
  · subst hOther
    simp [h]
  · simp [hOther]

theorem written_cons_some {content : List Char} (h : source file = some content) :
    written source (file :: files) layer =
      written source files (Function.update layer file (some content)) := by
  funext other
  simp only [written, List.mem_cons]
  by_cases hOther : other = file
  · subst hOther
    simp [h]
  · simp [hOther]

/-- The loop gets past files that the archive does not have. -/
theorem writeFiles_append (hRoot : ∀ file, root.file? [file.name] = source file)
    {rest : List StateFile} (hFault : ∀ file ∈ files, fault = some (.write file) →
      source file = none) (layer : Layer) :
    writeFiles root fault (files ++ rest) layer =
      writeFiles root fault rest (written source files layer) := by
  induction files generalizing layer with
  | nil =>
    have hNone : written source [] layer = layer := funext fun file => if_neg nofun
    rw [hNone, List.nil_append]
  | cons file files ih =>
    rw [List.forall_mem_cons] at hFault
    rw [List.cons_append, writeFiles, hRoot file]
    cases hSource : source file with
    | none =>
      rw [written_cons_none hSource]
      exact ih hFault.2 layer
    | some content =>
      rw [written_cons_some hSource]
      have hGoes : fault ≠ some (.write file) := fun h => by
        rw [hFault.1 h] at hSource
        cases hSource
      dsimp only
      rw [if_neg hGoes]
      exact ih hFault.2 _

/-- No file operation of the loop fails. -/
theorem writeFiles_all (hRoot : ∀ file, root.file? [file.name] = source file)
    (hFault : ∀ file, fault = some (.write file) → source file = none) :
    writeFiles root fault stateFiles layer = (written source stateFiles layer, true) := by
  conv_lhs => rw [← List.append_nil stateFiles]
  exact writeFiles_append hRoot (fun file _ => hFault file) layer

/-- The loop stops at the file that cannot be written. -/
theorem writeFiles_stops (hRoot : ∀ file, root.file? [file.name] = source file)
    (hSome : (source file).isSome = true) :
    writeFiles root (some (.write file)) stateFiles layer =
      (written source (stateFiles.takeWhile (· ≠ file)) layer, false) := by
  have hSplit : stateFiles = stateFiles.takeWhile (· ≠ file) ++
      file :: stateFiles.drop ((stateFiles.takeWhile (· ≠ file)).length + 1) := by
    cases file <;> decide
  have hBefore : ∀ earlier ∈ stateFiles.takeWhile (· ≠ file),
      some (Fault.write file) = some (.write earlier) → source earlier = none := by
    intro earlier hMem hSame
    obtain rfl := Fault.write.inj (Option.some.inj hSame)
    simpa using List.mem_takeWhile_imp hMem
  obtain ⟨content, hContent⟩ := Option.isSome_iff_exists.mp hSome
  conv_lhs => rw [hSplit]
  rw [writeFiles_append hRoot hBefore, writeFiles, hRoot file, hContent]
  exact if_pos rfl

theorem written_all_iff :
    (∀ file, written source stateFiles target file = source file) ↔
      ∀ other, source other = none → target other = none := by
  refine forall_congr' fun file => ?_
  simp only [written, mem_stateFiles, true_and]
  cases source file with
  | none | some content => simp

theorem written_eq_iff : (∀ file, written source files target file = target file) ↔
      ∀ earlier ∈ files, (source earlier).isSome = true → target earlier = source earlier := by
  refine forall_congr' fun file => ?_
  unfold written
  split_ifs with h
  · exact ⟨fun hSame _ _ => hSame.symm, fun hAll => (hAll h.1 h.2).symm⟩
  · exact iff_of_true rfl fun hMem hSome => absurd ⟨hMem, hSome⟩ h

/-- **An export and its import**, for every fault. -/
theorem exact_iff (odd : List Layers.Member → Option Tree) (source target : Layer)
    (fault : Option Fault) :
    Exact (fun layer : Layer => layer) (exportStateArchive source) source target
        (fun data => importStateArchive odd data target fault) ↔
      Copyable source target fault := by
  rw [exportStateArchive_eq]
  unfold Copyable
  by_cases hExtract : fault = some .extract
  · refine iff_of_true ((exact_iff_of_os ?_).mpr ?_) (.inl hExtract)
    · simp [importStateArchive, hExtract]
    · simp [importStateArchive, hExtract]
  rw [or_iff_right hExtract]
  obtain ⟨root, hRoot, hFiles⟩ := extractall_map odd (entries_apart source)
  have hImport : importStateArchive odd
      (.members ((entries source).map fun e => .file e.1 e.2)) target fault =
      replaceLayer root target fault := by
    rw [importStateArchive, if_neg nofun, if_neg hExtract]
    simp only [find?_unexpected, hRoot]
  have hSource : ∀ file, root.file? [file.name] = source file := by
    intro file
    refine Option.ext fun c => ?_
    rw [hFiles, mem_entries]
  have hManifest : root.file? [manifestName] = some stateBackupKind.toList :=
    (hFiles _ _).mpr (List.mem_append_right _ List.mem_cons_self)
  have hKind : ¬ (root.file? [manifestName]).map Lib.PyText.strip ≠
      some stateBackupKind.toList := by
    rw [hManifest]
    decide
  by_cases hConf : (source .conf).isSome = true
  swap
  · -- no configuration: the importer refuses its own archive
    have hNone : root.file? [StateFile.conf.name] = none := by
      rw [hSource, ← Option.not_isSome_iff_eq_none]
      exact hConf
    have hRefused : (replaceLayer root target fault).2 =
        some (.value "AWG 3 backup has no awg1.conf") := by
      rw [replaceLayer, if_neg hKind, if_pos hNone]
    rw [← hImport] at hRefused
    exact iff_of_false (not_exact_of_error hRefused nofun) fun h => hConf h.1
  rw [and_iff_right hConf]
  have hHas : ¬ root.file? [StateFile.conf.name] = none := by
    rw [hSource, ← Option.not_isSome_iff_eq_none, not_not]
    exact hConf
  rw [replaceLayer, if_neg hKind, if_neg hHas] at hImport
  -- the loop runs to its end unless it comes to a file that cannot be written
  have hReturns : fault ≠ some .mkdir → (∀ file, fault = some (.write file) → source file = none) →
      (Exact (fun layer : Layer => layer)
        (.ok (.members ((entries source).map fun e => .file e.1 e.2))) source target
        (fun data => importStateArchive odd data target fault) ↔
          ∀ other, source other = none → target other = none) := by
    intro hMkdir hFault
    rw [if_neg hMkdir, writeFiles_all hSource hFault] at hImport
    rw [exact_iff_of_returns (by rw [hImport]), hImport]
    exact written_all_iff
  rcases fault with _ | (_ | _ | file)
  · exact hReturns nofun nofun
  · exact absurd rfl hExtract
  · rw [if_pos rfl] at hImport
    rw [exact_iff_of_os (by rw [hImport]), hImport]
    exact iff_of_true (fun _ => rfl) trivial
  · by_cases hSome : (source file).isSome = true
    · rw [if_neg nofun, writeFiles_stops hSource hSome] at hImport
      rw [exact_iff_of_os (by rw [hImport]), hImport]
      dsimp only
      rw [if_pos hSome]
      exact written_eq_iff
    · dsimp only
      rw [if_neg hSome]
      refine hReturns nofun fun other hOther => ?_
      obtain rfl := Fault.write.inj (Option.some.inj hOther)
      rwa [← Option.not_isSome_iff_eq_none]

theorem replaceLayer_refused {root : Tree} {e : ImportError}
    (hOut : (replaceLayer root target fault).2 = some e) (hOther : e ≠ .os) :
    (replaceLayer root target fault).1 = target := by
  unfold replaceLayer at hOut ⊢
  split_ifs with hKind hConf hMkdir
  · rfl
  · rfl
  · rfl
  · rw [if_neg hKind, if_neg hConf, if_neg hMkdir] at hOut
    generalize writeFiles root fault stateFiles target = out at hOut
    obtain ⟨after, _ | _⟩ := out
    · exact absurd (Option.some.inj hOut).symm hOther
    · cases hOut

/-- Whatever the archive: an import that raises for another reason than a file operation has not
changed anything. -/
theorem unchanged_of_refused {odd : List Layers.Member → Option Tree} {data : ArchiveData}
    {e : ImportError} (hOut : (importStateArchive odd data target fault).2 = some e)
    (hOther : e ≠ .os) : (importStateArchive odd data target fault).1 = target := by
  unfold importStateArchive at hOut ⊢
  split_ifs with hEmpty hExtract
  · rfl
  · rfl
  · rw [if_neg hEmpty, if_neg hExtract] at hOut
    match data with
    | .empty | .damaged => rfl
    | .members ms =>
      dsimp only at hOut ⊢
      cases hFind : ms.find? (!Member.isExpected ·) with
      | some m => rfl
      | none =>
        rw [hFind] at hOut
        dsimp only at hOut ⊢
        cases hRoot : extractall odd ms with
        | none => rfl
        | some root =>
          rw [hRoot] at hOut
          exact replaceLayer_refused hOut hOther

end

end AdminPanel.Backup.Layers.Awg3

/-! ## Both layers -/

namespace AdminPanel.Backup.Layers

open Lib (FileTree)

/-- **An archive is copied exactly or not at all** just when the failing file operation does no
harm, the archive has what its importer asks for, and, for AmneziaWG 3, the target has no file
that the source lacks. An archive that is refused changes nothing. -/
theorem layers_exact_iff (odd : List Member → Option Tree) :
    (∀ source target fault,
      Exact Awg2.Layer.covered (Awg2.exportStateArchive source) source target
          (fun data => Awg2.importStateArchive target odd data fault) ↔
        (source.isInstalled = true → Awg2.Copyable source target fault)) ∧
    (∀ source target fault,
      Exact (fun layer : Awg3.Layer => layer) (Awg3.exportStateArchive source) source target
          (fun data => Awg3.importStateArchive odd data target fault) ↔
        Awg3.Copyable source target fault) ∧
    (∀ target data fault e, (Awg2.importStateArchive target odd data fault).2 = some e →
      e ≠ .os → (Awg2.importStateArchive target odd data fault).1 = target) ∧
    ∀ target data fault e, (Awg3.importStateArchive odd data target fault).2 = some e →
      e ≠ .os → (Awg3.importStateArchive odd data target fault).1 = target :=
  ⟨Awg2.exact_iff odd, Awg3.exact_iff odd, fun _ _ _ _ => Awg2.unchanged_of_refused,
    fun _ _ _ _ => Awg3.unchanged_of_refused⟩

/-- One file at the top of a tree. -/
def oneFile (name : FileName) (content : String) : Tree :=
  .ofEntries [([name], content.toList)] (List.pairwise_singleton _ _)

/-- An AmneziaWG 2 layer whose last client was deleted, and the same layer with a client. -/
def lastClientDeleted : Awg2.Layer :=
  ⟨true, true, some (oneFile ⟨"vpn-awg.conf", by decide⟩ "[Interface]"), some .empty, none⟩

def oneClient : Awg2.Layer :=
  { lastClientDeleted with clients := some (oneFile ⟨"vpn-ivan-am.conf", by decide⟩ "[Peer]") }

/-- An AmneziaWG 3 layer, and the same layer with a file `mtu`. -/
def withoutMtu : Awg3.Layer
  | .conf => some "[Interface]".toList
  | _ => none

def withMtu : Awg3.Layer := Function.update withoutMtu .mtu (some "1392".toList)

/-- `tarfile` refuses everything but files. -/
def noOther (_ : List Member) : Option Tree := none

/-- An archive without clients is refused, `mtu` outlives the import, and a directory that cannot
be made leaves none of the target's files. -/
theorem archives_not_exact :
    ¬ Exact Awg2.Layer.covered (Awg2.exportStateArchive lastClientDeleted) lastClientDeleted
        oneClient (fun data => Awg2.importStateArchive oneClient noOther data none) ∧
      ¬ Exact (fun layer : Awg3.Layer => layer) (Awg3.exportStateArchive withoutMtu) withoutMtu
        withMtu (fun data => Awg3.importStateArchive noOther data withMtu none) ∧
      ¬ Exact Awg2.Layer.covered (Awg2.exportStateArchive oneClient) oneClient oneClient
        (fun data => Awg2.importStateArchive oneClient noOther data
          (some (.tree .amnezia (.makedirs [])))) := by
  refine ⟨fun h => ?_, fun h => ?_, fun h => ?_⟩
  · obtain ⟨-, hExtract | ⟨-, ⟨path, hPath⟩, -⟩⟩ := (Awg2.exact_iff noOther _ _ _).mp h rfl
    · cases hExtract
    · rw [show Awg2.coveredFile lastClientDeleted.clients path = none from ite_self none] at hPath
      cases hPath
  · obtain hExtract | ⟨-, hAll⟩ := (Awg3.exact_iff noOther _ _ _).mp h
    · cases hExtract
    · cases hAll .mtu rfl
  · obtain ⟨-, hExtract | ⟨-, -, hHarmless⟩⟩ := (Awg2.exact_iff noOther _ _ _).mp h rfl
    · cases hExtract
    · have hGone := hHarmless _ rfl (.inl rfl) [⟨"vpn-awg.conf", by decide⟩]
      rw [if_pos List.nil_prefix] at hGone
      revert hGone
      decide

end AdminPanel.Backup.Layers
