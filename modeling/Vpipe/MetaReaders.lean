import Mathlib.Data.List.Nodup
import Vpipe.Lib.Transition
import Vpipe.MetaRing

/-! Any number of open metadata files, each with any number of reads in progress,
interleaved with publications. A read is two steps: its spin-locked section and,
after copy_to_user, its return with or without the cursor advance. The history,
the slot tags and the fields of `Copy` other than the entry are bookkeeping. -/
namespace Vpipe.MetaReaders
open Vpipe.Lib Vpipe.Lib.Transition Vpipe.MetaRing

/- What a locked section took away: the entry, the publication number of the slot's
content, the cursor it left behind and the head it saw. -/
structure Copy where
  entry : MetaEntry
  tag : Nat
  cursor : Nat
  head : Nat
  deriving DecidableEq, Repr

inductive Result where
  | again
  | eof
  | efault
  | delivered (c : Copy)
  deriving DecidableEq, Repr

def Result.copy? : Result → Option Copy
  | .delivered c => some c
  | _ => none

structure OpenFile where
  file : MetaFile
  opened : Nat
  pending : List (Nat × Copy)
  results : List Result
  deriving DecidableEq, Repr

def OpenFile.delivered (o : OpenFile) : List Copy := o.results.filterMap Result.copy?

structure System where
  dev : MetaDev
  history : List MetaEntry
  tags : Fin ringSize → Nat
  files : Nat → Option OpenFile

def System.init : System := ⟨MetaDev.init,[],fun _ => 0,fun _ => none⟩

inductive Event where
  | publish (e : MetaEntry)
  | open (f : Nat)
  | lock (f r : Nat)
  | finish (f r : Nat) (copyOk : Bool)
  deriving DecidableEq, Repr

def OpenFile.find (o : OpenFile) (r : Nat) : Option (Nat × Copy) := o.pending.find? (fun p => p.1 == r)

def OpenFile.lock (o : OpenFile) (dev : MetaDev) (tags : Fin ringSize → Nat) (r : Nat) : OpenFile :=
  if (o.find r).isSome then o
  else match vpipeMetaReadLocked dev o.file with
    | (.dying,file) => {o with file := file, results := o.results ++ [.eof]}
    | (.again,file) => {o with file := file, results := o.results ++ [.again]}
    | (.entry e,file) =>
      {o with file := file, pending := o.pending ++ [(r,⟨e,tags (slot file.tail),file.tail,dev.head⟩)]}

def OpenFile.finish (o : OpenFile) (r : Nat) (copyOk : Bool) : OpenFile :=
  match o.find r with
  | none => o
  | some p =>
    let pending := o.pending.filter (fun q => q.1 != r)
    if copyOk then
      {o with file := advance o.file, pending := pending, results := o.results ++ [.delivered p.2]}
    else {o with pending := pending, results := o.results ++ [.efault]}

def System.step (s : System) : Event → System
  | .publish e =>
    {s with
      dev := vpipeMetaPublish s.dev e
      history := s.history ++ [e]
      tags := Function.update s.tags (slot s.dev.head) s.history.length}
  | .open f =>
    if s.files f = none then
      {s with files := Function.update s.files f (some ⟨vpipeMetaOpen s.dev,s.history.length,[],[]⟩)}
    else s
  | .lock f r =>
    {s with files := Function.update s.files f ((s.files f).map (·.lock s.dev s.tags r))}
  | .finish f r copyOk =>
    {s with files := Function.update s.files f ((s.files f).map (·.finish r copyOk))}

def nextAfter : Nat → List Copy → Nat
  | next, [] => next
  | _, c :: rest => nextAfter (c.tag + 1) rest

def OpenFile.next (o : OpenFile) : Nat := nextAfter o.opened o.delivered

structure Ledger (s : System) : Prop where
  head : s.dev.head = s.history.length
  published : s.dev.published = s.history.length
  dropped : s.dev.dropped = s.history.length - ringSize
  alive : s.dev.dying = false
  entries : Ring.Holds s.dev.ring (s.history.map normalise)
  tags : Ring.Holds s.tags (List.range s.history.length)

theorem ledgerInit : Ledger System.init :=
  ⟨rfl,rfl,rfl,rfl,Ring.holdsEmpty _,Ring.holdsEmpty _⟩

theorem ledgerPublish {s : System} (ledger : Ledger s) (e : MetaEntry) :
    Ledger (s.step (.publish e)) := by
  have ring := Ring.holdsPush ledger.entries (normalise e)
  have tags := Ring.holdsPush ledger.tags s.history.length
  rw [List.length_map, ← ledger.head, ← slotPlace] at ring
  rw [List.length_range, ← List.range_succ, ← ledger.head, ← slotPlace, ledger.head] at tags
  refine ⟨?_,?_,?_,ledger.alive,?_,?_⟩
  · simp [System.step, vpipeMetaPublish, ledger.head]
  · simp [System.step, vpipeMetaPublish, ledger.published]
  · simp only [System.step, vpipeMetaPublish, ledger.head, ledger.dropped, List.length_append,
      List.length_singleton]
    split <;> omega
  · simpa [System.step, vpipeMetaPublish] using ring
  · simpa [System.step, ledger.head] using tags

theorem ledgerStep {s : System} (ledger : Ledger s) (event : Event) : Ledger (s.step event) := by
  cases event with
  | publish e => exact ledgerPublish ledger e
  | «open» f =>
    simp only [System.step]
    split
    · exact ⟨ledger.head,ledger.published,ledger.dropped,ledger.alive,ledger.entries,ledger.tags⟩
    · exact ledger
  | lock f r => exact ⟨ledger.head,ledger.published,ledger.dropped,ledger.alive,ledger.entries,ledger.tags⟩
  | finish f r ok =>
    exact ⟨ledger.head,ledger.published,ledger.dropped,ledger.alive,ledger.entries,ledger.tags⟩

theorem ledgerSlot {s : System} (ledger : Ledger s) {i : Nat} (published : i < s.history.length)
    (window : s.history.length ≤ i + ringSize) :
    ∃ e, s.history[i]? = some e ∧ s.dev.ring (slot i) = normalise e ∧ s.tags (slot i) = i := by
  refine ⟨s.history[i],List.getElem?_eq_getElem published,?_,?_⟩
  · rw [slotPlace]
    exact ledger.entries i _ (by simp [published]) (by simpa using window)
  · rw [slotPlace]
    exact ledger.tags i _ (by simp [published]) (by simpa using window)

def Genuine (history : List MetaEntry) (c : Copy) : Prop :=
  ∃ e, history[c.tag]? = some e ∧
    (c.entry = normalise e ∨ c.entry = {normalise e with flags := e.flags ||| metaFOverrun})

theorem genuineGrows {history : List MetaEntry} {c : Copy} (genuine : Genuine history c)
    (e : MetaEntry) : Genuine (history ++ [e]) c := by
  obtain ⟨x, found, shape⟩ := genuine
  have inside := (List.getElem?_eq_some_iff.mp found).1
  exact ⟨x,by rw [List.getElem?_append_left inside]; exact found,shape⟩

@[simp] theorem deliveredAppend (o : OpenFile) (results : List Result) :
    OpenFile.delivered {o with results := o.results ++ results} =
      o.delivered ++ results.filterMap Result.copy? := by
  simp [OpenFile.delivered]

theorem nextAfterAppend (next : Nat) (cs : List Copy) (c : Copy) :
    nextAfter next (cs ++ [c]) = c.tag + 1 := by
  induction cs generalizing next with
  | nil => rfl
  | cons d rest ih => exact ih (d.tag + 1)

theorem deliveredSilent (o : OpenFile) {result : Result} (silent : result.copy? = none) :
    OpenFile.delivered {o with results := o.results ++ [result]} = o.delivered := by
  simp [silent]

theorem nextSilent (o : OpenFile) {result : Result} (silent : result.copy? = none) :
    OpenFile.next {o with results := o.results ++ [result]} = o.next := by
  unfold OpenFile.next
  rw [deliveredSilent o silent]

theorem deliveredGiven (o : OpenFile) (c : Copy) :
    OpenFile.delivered {o with results := o.results ++ [.delivered c]} = o.delivered ++ [c] := by
  simp [Result.copy?]

theorem nextGiven (o : OpenFile) (c : Copy) :
    OpenFile.next {o with results := o.results ++ [.delivered c]} = c.tag + 1 := by
  unfold OpenFile.next
  rw [deliveredGiven]
  exact nextAfterAppend _ _ _

theorem lockCases {s : System} (ledger : Ledger s) (o : OpenFile) (r : Nat)
    (behind : o.file.tail ≤ s.dev.head) :
    o.lock s.dev s.tags r = o ∨
    (o.file.tail = s.dev.head ∧
      o.lock s.dev s.tags r = {o with results := o.results ++ [.again]}) ∨
    (o.file.tail < s.dev.head ∧ ∃ c : Copy, c.tag = c.cursor ∧ c.head = s.dev.head ∧
      c.cursor = max o.file.tail (oldest s.dev) ∧ Genuine s.history c ∧
      (o.file.tail < oldest s.dev → c.entry.overrun = true) ∧
      (oldest s.dev ≤ o.file.tail → ∃ e, s.history[c.tag]? = some e ∧ c.entry = normalise e) ∧
      o.lock s.dev s.tags r = {o with file := ⟨c.cursor⟩, pending := o.pending ++ [(r,c)]}) := by
  unfold OpenFile.lock
  split
  · exact .inl rfl
  rcases Nat.lt_or_eq_of_le behind with below | same
  · refine .inr (.inr ⟨below,?_⟩)
    rw [lockedEntry ledger.alive (by omega)]
    have size : 0 < ringSize := by decide
    by_cases lapped : o.file.tail < oldest s.dev
    · obtain ⟨e, found, inSlot, tagged⟩ := ledgerSlot (i := oldest s.dev) ledger
        (by have := ledger.head; unfold oldest at *; omega)
        (by have := ledger.head; unfold oldest at *; omega)
      rw [if_pos lapped]
      refine ⟨⟨_,s.tags (slot (oldest s.dev)),oldest s.dev,s.dev.head⟩,
        tagged,rfl,by simp only; omega,⟨e,by simp only [tagged]; exact found,.inr ?_⟩,
        fun _ => overrunSet _,fun near => by omega,rfl⟩
      simp [inSlot, normalise]
    · obtain ⟨e, found, inSlot, tagged⟩ := ledgerSlot (i := o.file.tail) ledger
        (by have := ledger.head; omega)
        (by have := ledger.head; unfold oldest at lapped; omega)
      rw [if_neg lapped]
      refine ⟨⟨_,s.tags (slot o.file.tail),o.file.tail,s.dev.head⟩,
        tagged,rfl,by simp only; omega,⟨e,by simp only [tagged]; exact found,.inl inSlot⟩,
        fun far => absurd far lapped,fun _ => ⟨e,by simp only [tagged]; exact found,inSlot⟩,rfl⟩
  · refine .inr (.inl ⟨same,?_⟩)
    simp [vpipeMetaReadLocked, ledger.alive, same]

theorem finishCases (o : OpenFile) (r : Nat) (copyOk : Bool) :
    o.finish r copyOk = o ∨
    ∃ c, o.find r = some (r,c) ∧ (r,c) ∈ o.pending ∧
      o.finish r copyOk =
        if copyOk then
          {o with file := advance o.file, pending := o.pending.filter (fun q => q.1 != r),
                  results := o.results ++ [.delivered c]}
        else {o with pending := o.pending.filter (fun q => q.1 != r),
                     results := o.results ++ [.efault]} := by
  unfold OpenFile.finish
  cases found : o.find r with
  | none => exact .inl rfl
  | some p =>
    obtain ⟨q, c⟩ := p
    have key : q = r := by simpa using List.find?_some found
    subst key
    exact .inr ⟨c,rfl,List.mem_of_find?_eq_some found,rfl⟩

theorem stepFileCases {s : System} {event : Event} {f : Nat} {o : OpenFile}
    (found : (s.step event).files f = some o) :
    s.files f = some o ∨
    (event = .open f ∧ o = ⟨vpipeMetaOpen s.dev,s.history.length,[],[]⟩) ∨
    (∃ before r, event = .lock f r ∧ s.files f = some before ∧ o = before.lock s.dev s.tags r) ∨
    (∃ before r copyOk, event = .finish f r copyOk ∧ s.files f = some before ∧
      o = before.finish r copyOk) := by
  cases event with
  | publish e => exact .inl found
  | «open» g =>
    simp only [System.step] at found
    split at found
    · by_cases same : f = g
      · subst same
        exact .inr (.inl ⟨rfl,by simpa using found.symm⟩)
      · exact .inl (by simpa [Function.update_of_ne same] using found)
    · exact .inl found
  | lock g r =>
    by_cases same : f = g
    · subst same
      simp only [System.step, Function.update_self, Option.map_eq_some_iff] at found
      obtain ⟨before, was, rfl⟩ := found
      exact .inr (.inr (.inl ⟨before,r,rfl,was,rfl⟩))
    · exact .inl (by simpa [System.step, Function.update_of_ne same] using found)
  | finish g r copyOk =>
    by_cases same : f = g
    · subst same
      simp only [System.step, Function.update_self, Option.map_eq_some_iff] at found
      obtain ⟨before, was, rfl⟩ := found
      exact .inr (.inr (.inr ⟨before,r,copyOk,rfl,was,rfl⟩))
    · exact .inl (by simpa [System.step, Function.update_of_ne same] using found)

theorem stepDev (s : System) (event : Event) :
    (s.step event).dev = match event with
      | .publish e => vpipeMetaPublish s.dev e
      | _ => s.dev := by
  cases event with
  | «open» f =>
    simp only [System.step]
    split <;> rfl
  | _ => rfl

theorem stepHead (s : System) (event : Event) : s.dev.head ≤ (s.step event).dev.head := by
  rw [stepDev]
  split
  · exact Nat.le_succ _
  · exact Nat.le_refl _

structure Fits (n : Nat) (s : System) : Prop where
  head : s.dev.head ≤ n
  published : s.dev.published ≤ n
  dropped : s.dev.dropped ≤ n
  tails : ∀ f o, s.files f = some o → o.file.tail ≤ n

theorem lockTail (o : OpenFile) (dev : MetaDev) (tags : Fin ringSize → Nat) (r : Nat) :
    (o.lock dev tags r).file.tail ≤ max o.file.tail dev.head := by
  unfold OpenFile.lock vpipeMetaReadLocked
  repeat' split
  all_goals grind

theorem finishTail (o : OpenFile) (r : Nat) (copyOk : Bool) :
    (o.finish r copyOk).file.tail ≤ o.file.tail + 1 := by
  rcases finishCases o r copyOk with same | ⟨c, -, -, done⟩
  · rw [same]
    exact Nat.le_succ _
  · rw [done]
    split
    · exact Nat.le_refl _
    · exact Nat.le_succ _

theorem fitsStep {n : Nat} {s : System} (fits : Fits n s) (event : Event) : Fits (n + 1) (s.step event) where
  head := by
    have := fits.head
    rw [stepDev]
    split
    · exact Nat.succ_le_succ this
    · omega
  published := by
    have := fits.published
    rw [stepDev]
    split
    · exact Nat.succ_le_succ this
    · omega
  dropped := by
    have := fits.head
    have := fits.dropped
    rw [stepDev]
    split
    · simp only [vpipeMetaPublish]
      split <;> omega
    · omega
  tails := by
    intro f o found
    have top := fits.head
    rcases stepFileCases found with was | ⟨-, rfl⟩ | ⟨before, r, -, was, rfl⟩ | ⟨before, r, copyOk, -, was, rfl⟩
    · exact Nat.le_succ_of_le (fits.tails f o was)
    · exact Nat.le_succ_of_le top
    · have := fits.tails f before was
      have := lockTail before s.dev s.tags r
      omega
    · have := fits.tails f before was
      have := finishTail before r copyOk
      omega

theorem countersFit {events : List Event} (short : events.length < 2^64) :
    ∃ n < 2^64, Fits n (run System.step System.init events) := by
  have fits : ∀ (n : Nat) (s : System), Fits n s → Fits (n + events.length) (run System.step s events) := by
    clear short
    induction events with
    | nil => exact fun _ _ fits => fits
    | cons event rest ih =>
      intro n s fits
      have later := ih (n + 1) (s.step event) (fitsStep fits event)
      rwa [Nat.add_assoc, Nat.add_comm 1] at later
  have start : Fits 0 System.init := ⟨Nat.le_refl _,Nat.le_refl _,Nat.le_refl _,by simp [System.init]⟩
  exact ⟨_,by rwa [Nat.zero_add],fits 0 _ start⟩

end Vpipe.MetaReaders
