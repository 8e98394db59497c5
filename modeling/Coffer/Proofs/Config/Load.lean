import Coffer.Config.Load
import Coffer.Proofs.Host

-- What a configuration is made of, path by path, and what stops it from being made.

namespace Coffer.Config

-- What a path has for a configuration: nothing to add, a file that is passed over, a mapping, or a
-- failure that no one handles. A mapping that holds itself is left aside.
inductive Found where
  | nothing
  | skipped (e : Failure)
  | mapping (entries : List (Value × Value))
  | endless
  | blocking (e : Failure)

namespace Found

def ofDocument : Except Failure Value → Found
  | .error e => if isUnusable e then .skipped e else .blocking e
  | .ok (.dict entries) => if (Value.dict entries).isFinite then .mapping entries else .endless
  | .ok v => if v.isBlank then .nothing else .blocking (.noMember v.typeName "items")

def isPassed : Found → Bool
  | .nothing | .skipped _ | .mapping _ => true
  | .endless | .blocking _ => false

def entries? : Found → Option (List (Value × Value))
  | .mapping entries => some entries
  | _ => none

def notice? (path : PathName) : Found → Option Notice
  | .skipped e => some (skipNotice path e)
  | _ => none

end Found

def foundAt (d : Disk) (path : PathName) : Found :=
  match d.has path with
  | .error fault => .blocking (.system fault)
  | .ok false => .nothing
  | .ok true =>
      match d.readBytes path with
      | .error fault => .skipped (.unusable (.unreadableDocument fault))
      | .ok content => Found.ofDocument (ofBytes content)

def mappings (d : Disk) (paths : List PathName) : List (List (Value × Value)) :=
  paths.filterMap fun path => (foundAt d path).entries?

def notices (d : Disk) (paths : List PathName) : List Notice :=
  paths.filterMap fun path => (foundAt d path).notice? path

theorem mappings_append (d : Disk) (before after : List PathName) :
    mappings d (before ++ after) = mappings d before ++ mappings d after := List.filterMap_append

theorem notices_append (d : Disk) (before after : List PathName) :
    notices d (before ++ after) = notices d before ++ notices d after := List.filterMap_append

def noted (h : Host) (notices : List Notice) : Host := { h with notices := h.notices ++ notices }

section File

variable {config : List (Value × Value)} {path : PathName} {h : Host}

theorem hasNullByte_of_has (hthere : h.disk.has path = .ok true) : path.hasNullByte = false := by
  by_contra hnull
  rw [Disk.has, if_pos (by simpa using hnull)] at hthere
  cases hthere

theorem mergeFile_of_not_there (hthere : h.disk.has path = .ok false) :
    mergeFile config path h = (.ok config, h) := by
  refine (Action.bind_of_ok (a := false) (t := h) ?_).trans rfl
  rw [hthere, mapError_ok]

theorem mergeFile_of_fault {fault : SystemFault} (hthere : h.disk.has path = .error fault) :
    mergeFile config path h = (.error (.system fault), h) := by
  refine Action.bind_of_error ?_
  rw [hthere, mapError_error]

-- A document that could not be read is one like any other that cannot be used.
theorem readDocument_eq (hthere : h.disk.has path = .ok true) :
    readDocument path h =
      ((((h.disk.readBytes path).mapError fun fault => .unusable (.unreadableDocument fault)) >>=
        fun content => orEmpty <$> ofBytes content), h) := by
  have hread := Host.readFile_eq (h := h) (hasNullByte_of_has hthere)
  unfold readDocument
  cases hbytes : h.disk.readBytes path with
  | error fault =>
      rw [hbytes] at hread
      exact Action.bind_of_error (Action.orElse_of_error hread)
  | ok content =>
      rw [hbytes] at hread
      refine (Action.bind_of_ok (Action.orElse_of_ok hread)).trans ?_
      rw [Action.ofExcept_apply, mapError_ok, ok_bind]

-- What is done with a document once it has been read and merged, or not.
def afterMerging (config : List (Value × Value)) (path : PathName) :
    Except Failure (List (Value × Value)) → Action Host (List (Value × Value))
  | .ok merged => return merged
  | .error e =>
      if isUnusable e then do
        Host.note (skipNotice path e)
        return config
      else .fail e

theorem mergeFile_of_there {document : Except Failure Value} (hthere : h.disk.has path = .ok true)
    (hread : readDocument path h = (document, h)) :
    mergeFile config path h = afterMerging config path (document >>= merge config) h := by
  have hmerged : (readDocument path >>= fun v => Action.ofExcept (merge config v)) h =
      (document >>= merge config, h) := by
    cases document with
    | ok v => exact Action.bind_of_ok hread
    | error e => exact Action.bind_of_error hread
  refine (Action.bind_of_ok (a := true) (t := h) (by rw [hthere, mapError_ok])).trans ?_
  exact Action.bind_of_ok (Action.attempt_of_eq hmerged)

theorem afterMerging_of_unusable {e : Failure} (he : isUnusable e = true) :
    afterMerging config path (.error e) h = (.ok config, noted h [skipNotice path e]) := by
  rw [afterMerging, if_pos he]
  rfl

theorem afterMerging_of_other {e : Failure} (he : ¬isUnusable e = true) :
    afterMerging config path (.error e) h = (.error e, h) := by
  rw [afterMerging, if_neg he]
  rfl

theorem merge_orEmpty_of_blank {v : Value} (hblank : v.isBlank = true) :
    merge config (orEmpty v) = .ok config := by
  rw [orEmpty, if_pos hblank]
  rfl

theorem merge_orEmpty_of_not_blank {v : Value} (hblank : ¬v.isBlank = true) :
    merge config (orEmpty v) = merge config v := by
  rw [orEmpty, if_neg hblank]

theorem merge_orEmpty_dict (entries : List (Value × Value)) :
    merge config (orEmpty (.dict entries)) = .ok (mergeEntries config entries) := by
  cases entries with
  | nil => exact merge_orEmpty_of_blank rfl
  | cons e entries => exact merge_orEmpty_of_not_blank nofun

-- What merging a file does, by what there is at its path.
def Does (config : List (Value × Value)) (path : PathName) (h : Host)
    (r : Except Failure (List (Value × Value)) × Host) : Found → Prop
  | .nothing => r = (.ok config, h)
  | .skipped e => r = (.ok config, noted h [skipNotice path e])
  | .mapping entries => r = (.ok (mergeEntries config entries), h)
  | .endless => True
  | .blocking e => r = (.error e, h)

theorem afterMerging_does (document : Except Failure Value) :
    Does config path h (afterMerging config path (orEmpty <$> document >>= merge config) h)
      (Found.ofDocument document) := by
  unfold Found.ofDocument
  split
  · next e =>
    split
    · next he => exact afterMerging_of_unusable he
    · next he => exact afterMerging_of_other he
  · next entries =>
    rw [ok_map, ok_bind, merge_orEmpty_dict]
    split
    · exact rfl
    · trivial
  · next v hv =>
    rw [ok_map, ok_bind]
    split
    · next hblank =>
      rw [merge_orEmpty_of_blank hblank]
      exact rfl
    · next hblank =>
      rw [merge_orEmpty_of_not_blank hblank, merge]
      · exact afterMerging_of_other nofun
      · exact hv

theorem mergeFile_does (config : List (Value × Value)) (path : PathName) (h : Host) :
    Does config path h (mergeFile config path h) (foundAt h.disk path) := by
  unfold foundAt
  split
  · next fault hthere => exact mergeFile_of_fault hthere
  · next hthere => exact mergeFile_of_not_there hthere
  · next hthere =>
    have hread := readDocument_eq hthere
    split
    · next fault hbytes =>
      rw [hbytes, mapError_error, error_bind] at hread
      rw [mergeFile_of_there hthere hread, error_bind]
      exact afterMerging_of_unusable rfl
    · next content hbytes =>
      rw [hbytes, mapError_ok, ok_bind] at hread
      generalize ofBytes content = document at hread ⊢
      rw [mergeFile_of_there hthere hread]
      exact afterMerging_does document

theorem mergeFile_of_passed (hpassed : (foundAt h.disk path).isPassed) :
    mergeFile config path h =
      (.ok ((mappings h.disk [path]).foldl mergeEntries config), noted h (notices h.disk [path])) := by
  have hdoes := mergeFile_does config path h
  unfold mappings notices
  cases hfound : foundAt h.disk path with
  | nothing =>
      rw [hfound, Does] at hdoes
      simpa [hfound, Found.entries?, Found.notice?, noted] using hdoes
  | skipped e =>
      rw [hfound, Does] at hdoes
      simpa [hfound, Found.entries?, Found.notice?] using hdoes
  | mapping entries =>
      rw [hfound, Does] at hdoes
      simpa [hfound, Found.entries?, Found.notice?, noted] using hdoes
  | endless | blocking =>
      rw [hfound] at hpassed
      cases hpassed

end File

section Files

variable {config : List (Value × Value)} {paths : List PathName} {h : Host}

-- Induction on the paths; the notices left on the way are no part of the disk.
theorem mergeFiles_of_passed (hpassed : ∀ path ∈ paths, (foundAt h.disk path).isPassed) :
    mergeFiles config paths h =
      (.ok ((mappings h.disk paths).foldl mergeEntries config), noted h (notices h.disk paths)) := by
  induction paths generalizing config h with
  | nil => simp [mergeFiles, mappings, notices, noted]
  | cons first paths ih =>
      obtain ⟨hfirst, hpaths⟩ := List.forall_mem_cons.mp hpassed
      have hrest : ∀ path ∈ paths, (foundAt (noted h (notices h.disk [first])).disk path).isPassed := hpaths
      refine (Action.bind_of_ok (mergeFile_of_passed hfirst)).trans ((ih hrest).trans ?_)
      rw [← List.singleton_append (l := paths), mappings_append, notices_append, List.foldl_append]
      simp only [noted, List.append_assoc]

end Files

-- What files and environment make together if no file is in the way.
def combined (env : Environment) (mappings : List (List (Value × Value))) : List (Value × Value) :=
  mergeEntries (mappings.foldl mergeEntries []) [(.text sectionName, overrides env)]

theorem load_of_passed (env : Environment) {paths : List PathName} {h : Host}
    (hpassed : ∀ path ∈ paths, (foundAt h.disk path).isPassed) :
    load env (some paths) h =
      (.ok (combined env (mappings h.disk paths)), noted h (notices h.disk paths)) := by
  refine (Action.bind_of_ok rfl).trans ?_
  exact Action.bind_of_ok (mergeFiles_of_passed hpassed)

end Coffer.Config
