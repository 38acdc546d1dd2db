import Vpipe.MetaReaders

/-! Reads issued concurrently on one open file. The cursor is picked under the lock
but advanced outside it: nothing is lost or repeated as long as every advance finds
the cursor where its own locked section left it. -/
namespace Vpipe.MetaConcurrent
open Vpipe.Lib Vpipe.Lib.Transition Vpipe.MetaRing Vpipe.MetaReaders

/- No entry still in the window seen by the next delivered read is passed over,
unless that read is flagged. -/
def NoSilentSkip : Nat → List Copy → Prop
  | _, [] => True
  | next, c :: rest =>
    (∀ i, next ≤ i → i < c.tag → c.head ≤ i + ringSize → c.entry.overrun = true) ∧
    NoSilentSkip (c.tag + 1) rest

structure Lossless (s : System) (o : OpenFile) : Prop where
  behind : o.file.tail ≤ s.dev.head
  once : (o.delivered.map Copy.tag).Nodup
  skips : NoSilentSkip o.opened o.delivered

def CursorHeld (s : System) : Event → Prop
  | .finish f r true => ∀ o ∈ s.files f, ∀ p ∈ o.find r, o.file.tail = p.2.cursor
  | _ => True

instance (s : System) (event : Event) : Decidable (CursorHeld s event) := by
  unfold CursorHeld
  split <;> infer_instance

theorem noSilentSkipAppend (next : Nat) (cs : List Copy) (c : Copy) :
    NoSilentSkip next (cs ++ [c]) ↔ NoSilentSkip next cs ∧
      ∀ i, nextAfter next cs ≤ i → i < c.tag → c.head ≤ i + ringSize → c.entry.overrun = true := by
  induction cs generalizing next with
  | nil => simp [NoSilentSkip, nextAfter]
  | cons d rest ih => simp [NoSilentSkip, nextAfter, ih, and_assoc]

structure CopyOk (head next : Nat) (c : Copy) : Prop where
  tag : c.tag = c.cursor
  below : c.cursor < c.head
  seen : c.head ≤ head
  window : c.cursor ≤ next ∨ c.cursor + ringSize ≤ c.head

theorem copyOkLater {head next : Nat} {c : Copy} (ok : CopyOk head next c) {head' next' : Nat}
    (heads : head ≤ head') (nexts : next ≤ next') : CopyOk head' next' c :=
  ⟨ok.tag,ok.below,ok.seen.trans heads,ok.window.imp_left (fun h => h.trans nexts)⟩

structure Tracked (head : Nat) (o : OpenFile) : Prop where
  ahead : o.next ≤ o.file.tail
  behind : o.file.tail ≤ head
  caught : o.file.tail = o.next ∨ o.file.tail + ringSize ≤ head
  pending : ∀ p ∈ o.pending, CopyOk head o.next p.2
  below : ∀ c ∈ o.delivered, c.tag < o.next
  once : (o.delivered.map Copy.tag).Nodup
  skips : NoSilentSkip o.opened o.delivered

theorem trackedOpen (dev : MetaDev) : Tracked dev.head ⟨vpipeMetaOpen dev,dev.head,[],[]⟩ where
  ahead := Nat.le_refl _
  behind := Nat.le_refl _
  caught := .inl rfl
  pending := by simp
  below := by simp [OpenFile.delivered]
  once := by simp [OpenFile.delivered]
  skips := trivial

theorem trackedLater {head head' : Nat} {o : OpenFile} (tracked : Tracked head o)
    (heads : head ≤ head') : Tracked head' o where
  ahead := tracked.ahead
  behind := tracked.behind.trans heads
  caught := tracked.caught.imp_right (fun h => h.trans heads)
  pending p member := copyOkLater (tracked.pending p member) heads (Nat.le_refl _)
  below := tracked.below
  once := tracked.once
  skips := tracked.skips

theorem trackedNoDelivery {head : Nat} {o : OpenFile} (tracked : Tracked head o) (result : Result)
    (silent : result.copy? = none) :
    Tracked head {o with results := o.results ++ [result]} := by
  have same := deliveredSilent o silent
  have next := nextSilent o silent
  exact ⟨next ▸ tracked.ahead,tracked.behind,next ▸ tracked.caught,next ▸ tracked.pending,
    by rw [same, next]; exact tracked.below,by rw [same]; exact tracked.once,
    by rw [same]; exact tracked.skips⟩

theorem trackedLock {s : System} (ledger : Ledger s) {o : OpenFile}
    (tracked : Tracked s.dev.head o) (r : Nat) :
    Tracked s.dev.head (o.lock s.dev s.tags r) := by
  rcases lockCases ledger o r tracked.behind with same | ⟨_, empty⟩ |
    ⟨below, c, tag, head, cursor, _, _, _, taken⟩
  · rw [same]; exact tracked
  · rw [empty]; exact trackedNoDelivery tracked .again rfl
  · rw [taken]
    have size : 0 < ringSize := by decide
    have ahead := tracked.ahead
    have caught := tracked.caught
    have bottom : oldest s.dev = s.dev.head - ringSize := rfl
    refine ⟨?_,?_,?_,?_,tracked.below,tracked.once,tracked.skips⟩
    · change o.next ≤ c.cursor
      omega
    · change c.cursor ≤ s.dev.head
      omega
    · change c.cursor = o.next ∨ c.cursor + ringSize ≤ s.dev.head
      omega
    · intro p member
      rcases List.mem_append.mp member with old | new
      · exact tracked.pending p old
      · have eq : p = (r,c) := by simpa using new
        subst eq
        change CopyOk s.dev.head o.next c
        exact ⟨tag,by omega,by omega,by omega⟩

theorem trackedFinish {head : Nat} {o : OpenFile} (tracked : Tracked head o) (r : Nat) (copyOk : Bool)
    (held : copyOk = true → ∀ p, o.find r = some p → o.file.tail = p.2.cursor) :
    Tracked head (o.finish r copyOk) := by
  rcases finishCases o r copyOk with same | ⟨c, found, member, finished⟩
  · rw [same]; exact tracked
  rw [finished]
  have ok : CopyOk head o.next c := tracked.pending _ member
  have kept : ∀ p ∈ o.pending.filter (fun q => q.1 != r), p ∈ o.pending :=
    fun p inside => (List.mem_filter.mp inside).1
  cases copyOk with
  | false =>
    have quiet := trackedNoDelivery tracked .efault rfl
    exact ⟨quiet.ahead,quiet.behind,quiet.caught,fun p inside => quiet.pending p (kept p inside),
      quiet.below,quiet.once,quiet.skips⟩
  | true =>
    -- The guard places the cursor on the entry that is being delivered.
    have stands : o.file.tail = c.cursor := held rfl _ found
    have tag := ok.tag
    have ahead := tracked.ahead
    have next := nextGiven o c
    have given := deliveredGiven o c
    refine ⟨?_,?_,?_,?_,?_,?_,?_⟩
    · change OpenFile.next {o with results := o.results ++ [.delivered c]} ≤ o.file.tail + 1
      omega
    · change o.file.tail + 1 ≤ head
      have := ok.below
      have := ok.seen
      omega
    · left
      change o.file.tail + 1 = OpenFile.next {o with results := o.results ++ [.delivered c]}
      omega
    · intro p inside
      change CopyOk head (OpenFile.next {o with results := o.results ++ [.delivered c]}) p.2
      exact copyOkLater (tracked.pending p (kept p inside)) (Nat.le_refl _) (by omega)
    · intro d inside
      change d.tag < OpenFile.next {o with results := o.results ++ [.delivered c]}
      rcases List.mem_append.mp (given ▸ inside) with old | new
      · have := tracked.below d old
        omega
      · rw [List.mem_singleton.mp new]
        omega
    · change ((OpenFile.delivered {o with results := o.results ++ [.delivered c]}).map Copy.tag).Nodup
      rw [given, List.map_append]
      refine List.nodup_append.mpr ⟨tracked.once,by simp,?_⟩
      intro a old b new
      obtain ⟨d, inside, rfl⟩ := List.mem_map.mp old
      have := tracked.below d inside
      have : b = c.tag := by simpa using new
      omega
    · change NoSilentSkip o.opened (OpenFile.delivered {o with results := o.results ++ [.delivered c]})
      rw [given]
      refine (noSilentSkipAppend _ _ _).mpr ⟨tracked.skips,?_⟩
      intro i skipped passed inWindow
      have window := ok.window
      change o.next ≤ i at skipped
      omega

structure Safe (s : System) : Prop where
  ledger : Ledger s
  files : ∀ f o, s.files f = some o → Tracked s.dev.head o

theorem safeInit : Safe System.init := ⟨ledgerInit,by simp [System.init]⟩

theorem safeStep (s : System) (event : Event) (safe : Safe s) (held : CursorHeld s event) :
    Safe (s.step event) := by
  refine ⟨ledgerStep safe.ledger event,?_⟩
  intro f o found
  have heads := stepHead s event
  rcases stepFileCases found with same | ⟨_, rfl⟩ | ⟨before, r, _, was, rfl⟩ |
    ⟨before, r, copyOk, rfl, was, rfl⟩
  · exact trackedLater (safe.files f o same) heads
  · rw [← safe.ledger.head]
    exact trackedLater (trackedOpen s.dev) heads
  · exact trackedLater (trackedLock safe.ledger (safe.files f before was) r) heads
  · refine trackedLater (trackedFinish (safe.files f before was) r copyOk ?_) heads
    intro copied p read
    subst copied
    exact held before was p read

/-- In every interleaving of publications with reads whose advances all find the
cursor where their own locked section left it, the cursor stays behind the head, no
entry is delivered twice and no entry of the window is silently skipped. -/
theorem concurrentReadsLossless (events : List Event)
    (held : Meets System.step CursorHeld System.init events) (f : Nat) (o : OpenFile)
    (isOpen : (run System.step System.init events).files f = some o) :
    Lossless (run System.step System.init events) o := by
  have safe := runInvariant safeStep safeInit held
  have tracked := safe.files f o isOpen
  exact ⟨tracked.behind,tracked.once,tracked.skips⟩

def sharedRead : List Event :=
  [.open 0,.publish {seq := 1},.lock 0 1,.lock 0 2,.finish 0 2 false,.finish 0 1 true]

theorem sharedReadLossless : ∃ o, (run System.step System.init sharedRead).files 0 = some o ∧
    Lossless (run System.step System.init sharedRead) o :=
  ⟨_,rfl,concurrentReadsLossless sharedRead (by decide) 0 _ rfl⟩

def overlappingReads : List Event :=
  [.open 0,.publish {seq := 1},.lock 0 1,.lock 0 2,.finish 0 1 true,.finish 0 2 true]

theorem overlappingReadsRepeat :
    ∃ o, (run System.step System.init overlappingReads).files 0 = some o ∧
      o.delivered.map Copy.tag = [0,0] ∧ o.file.tail = 2 ∧
      (run System.step System.init overlappingReads).dev.head = 1 ∧
      ¬ Lossless (run System.step System.init overlappingReads) o := by
  refine ⟨_,rfl,rfl,rfl,rfl,?_⟩
  intro lossless
  exact absurd lossless.behind (by decide)

end Vpipe.MetaConcurrent
