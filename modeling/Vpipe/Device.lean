import Vpipe.Lib.Ledger
import Vpipe.Publication

/-! The module with any number of open contexts. They share one kernel: the sequence counter,
the metadata ring and the identities of buffers. -/
namespace Vpipe.Device
open Vpipe.Lib.Word Vpipe.Lib.ByteMemory Vpipe.Lib.BufferQueue Vpipe.Lib.Transition Vpipe.Lib.Ledger
open Vpipe.Cv Vpipe.FrameSource Vpipe.MetaRing Vpipe.M2m Vpipe.Moves Vpipe.Discipline Vpipe.Runs
open Vpipe.Frames Vpipe.Publication

structure Dev where
  k : Kernel
  ctxs : Nat → Option Ctx

inductive DevEvent where
  | open_ (c : Nat) (env : OpenEnv)
  | release (c : Nat)
  | ioctl (c : Nat) (e : Event)
  deriving DecidableEq, Repr

def Dev.boot (clock : Nat → Nat) (params : Params) : Dev := ⟨Kernel.boot clock params,fun _ => none⟩

def Dev.put (d : Dev) (c : Nat) (s : Sys) : Dev := ⟨s.k,Function.update d.ctxs c (some s.c)⟩

def Dev.step (d : Dev) : DevEvent → Dev
  | .open_ c env => match d.ctxs c, vpipeOpen d.k c env with
    | none, .ok s => d.put c s
    | _, _ => d
  | .release c => match d.ctxs c with
    | some x => ⟨(vpipeRelease ⟨d.k,x⟩).k,Function.update d.ctxs c none⟩
    | none => d
  | .ioctl c e => match d.ctxs c with
    | some x => d.put c (Sys.step ⟨d.k,x⟩ e)
    | none => d

def Dev.queue (d : Dev) (c : Nat) (t : QType) : Queue VpipeBuffer := match d.ctxs c with
  | some x => x.queues t
  | none => Queue.empty blankBuf

theorem putQueue (d : Dev) (c : Nat) (s : Sys) (c' : Nat) (t : QType) :
    (d.put c s).queue c' t = if c' = c then s.queue t else d.queue c' t := by
  by_cases same : c' = c
  · subst same; simp [Dev.queue, Dev.put, Sys.queue]
  · simp [Dev.queue, Dev.put, same]

def unstamped (p : Publication) : Nat × MetaEntry := (p.buffer,{p.entry with dqbufTimestampNs := 0})

def books (d : Dev) : Books Nat MetaEntry where
  produced := d.k.frames.map (fun f => (f.target,f.entry))
  delivered := d.k.published.map unstamped
  slot id e := ∃ c, (id,e) ∈ waiting (d.queue c .capture)

structure Numbered (k : Kernel) : Prop where
  seqs : k.frames.map (fun f => f.entry.seq) = List.range' 1 k.frames.length
  sequence : k.sequence = k.frames.length
  unstamped : ∀ f ∈ k.frames, f.entry.dqbufTimestampNs = 0
  ring : k.metaDev = k.published.foldl (fun m p => vpipeMetaPublish m p.entry) MetaDev.init

structure Names (d : Dev) : Prop where
  fresh : ∀ c t, ∀ id ∈ (d.queue c t).ids, id < d.k.machine.next
  apart : ∀ c t c' t' id, id ∈ (d.queue c t).ids → id ∈ (d.queue c' t').ids → c = c' ∧ t = t'
  targets : ∀ f ∈ d.k.frames, f.target < d.k.machine.next ∧ ∀ c, f.target ∉ (d.queue c .output).ids
  owned : ∀ c, ∀ w ∈ waiting (d.queue c .capture), w.1 ∈ (d.queue c .capture).ids

structure Accounts (d : Dev) : Prop where
  numbered : Numbered d.k
  names : Names d
  slots : ∀ c, Slots (d.queue c .capture)
  balanced : Balanced (books d)

theorem numberedSeq {k : Kernel} (numbered : Numbered k) {f : Frame} (member : f ∈ k.frames) :
    1 ≤ f.entry.seq ∧ f.entry.seq ≤ k.frames.length := by
  have inside : f.entry.seq ∈ k.frames.map (fun f => f.entry.seq) := List.mem_map_of_mem member
  rw [numbered.seqs, List.mem_range'_1] at inside
  omega

theorem producedFrame {d : Dev} {id : Nat} {e : MetaEntry} (member : (id,e) ∈ (books d).produced) :
    ∃ f ∈ d.k.frames, f.target = id ∧ f.entry = e := by
  obtain ⟨f, inside, same⟩ := List.mem_map.mp member
  exact ⟨f,inside,congrArg Prod.fst same,congrArg Prod.snd same⟩

section Move
variable {d : Dev} {c : Nat} {s : Sys} {l : Move}

theorem slotPut (id : Nat) (e : MetaEntry) : (books (d.put c s)).slot id e ↔
    (id,e) ∈ outbox s ∨ ∃ c', c' ≠ c ∧ (id,e) ∈ waiting (d.queue c' .capture) := by
  simp only [books, putQueue]
  constructor
  · rintro ⟨c', member⟩
    by_cases same : c' = c
    · rw [if_pos same] at member
      exact .inl member
    · rw [if_neg same] at member
      exact .inr ⟨c',same,member⟩
  · rintro (member | ⟨c', differ, member⟩)
    · exact ⟨c,by simpa [outbox] using member⟩
    · exact ⟨c',by simpa [differ] using member⟩

theorem accountsLive (accounts : Accounts (d.put c s)) : Live s := by
  rintro ⟨id, e⟩ member
  have made := (accounts.balanced.held id e ((slotPut id e).mpr (.inl member))).1
  obtain ⟨f, inside, _, rfl⟩ := producedFrame made
  have first := (numberedSeq accounts.numbered inside).1
  exact Nat.ne_of_gt first

theorem accountsSlots (accounts : Accounts (d.put c s)) : Slots (s.queue .capture) := by
  have here := accounts.slots c
  rwa [putQueue, if_pos rfl] at here

theorem othersApart (accounts : Accounts (d.put c s)) {id : Nat} (inside : id ∈ (s.queue .capture).ids)
    {c' : Nat} (differ : c' ≠ c) (e : MetaEntry) : (id,e) ∉ waiting (d.queue c' .capture) := by
  intro member
  have owned := accounts.names.owned c' (id,e)
  rw [putQueue, if_neg differ] at owned
  refine differ (accounts.names.apart c' .capture c .capture id ?_ ?_).1
  · rw [putQueue, if_neg differ]; exact owned member
  · rw [putQueue, if_pos rfl]; exact inside

theorem outboxOwned (steady : Steady s) {id : Nat} {e : MetaEntry} (member : (id,e) ∈ outbox s) :
    id ∈ (s.queue .capture).ids :=
  (steady.sound .capture).wf.doneInside (waitingMember.mp member).1

theorem numberedSame {k k' : Kernel} (numbered : Numbered k) (same : SameBooks k k') : Numbered k' := by
  obtain ⟨seqs, sequence, unstamped, ring⟩ := numbered
  refine ⟨?_,?_,?_,?_⟩
  · rw [same.frames]; exact seqs
  · rw [same.sequence, same.frames]; exact sequence
  · rw [same.frames]; exact unstamped
  · rw [same.metaDev, same.published]; exact ring

theorem numberedMove (numbered : Numbered s.k) (effect : Effect s l (move s l))
    (small : (move s l).k.frames.length < 2^64) : Numbered (move s l).k := by
  obtain ⟨seqs, sequence, unstamped, ring⟩ := numbered
  cases effect with
  | quiet books _ => exact numberedSame ⟨seqs,sequence,unstamped,ring⟩ books
  | refused _ _ _ kernel _ => rw [kernel]; exact ⟨seqs,sequence,unstamped,ring⟩
  | cancelled id e _ _ kernel _ =>
    rw [kernel]
    exact ⟨seqs,sequence,unstamped,by simp [publishPending, ring]⟩
  | dequeued id e _ _ _ _ kernel _ _ _ =>
    rw [kernel]
    exact ⟨seqs,sequence,unstamped,by simp [publishPending, ring]⟩
  | processed f _ _ frames next number stamp metaDev published _ _ _ _ =>
    have length : (move s l).k.frames.length = s.k.frames.length + 1 := by rw [frames]; simp
    have count : (move s l).k.sequence = s.k.frames.length + 1 := by
      rw [next, sequence]
      exact u64Of (length ▸ small)
    refine ⟨?_,by rw [count, length],?_,by rw [metaDev, published]; exact ring⟩
    · rw [length, List.range'_1_concat, frames, List.map_append, seqs, List.map_singleton, number, count,
        Nat.add_comm 1]
    · intro g member
      rw [frames, List.mem_append, List.mem_singleton] at member
      rcases member with old | rfl
      · exact unstamped g old
      · exact stamp

theorem quietLedger {s' : Sys} (frames : s'.k.frames = s.k.frames) (published : s'.k.published = s.k.published)
    (same : outbox s' = outbox s) : Step (books (d.put c s)) (books (d.put c s')) := by
  refine .quiet (congrArg (List.map _) frames) (congrArg (List.map _) published) (fun id e => ?_)
  rw [slotPut, slotPut, same]

theorem deliverLedger {s' : Sys} (accounts : Accounts (d.put c s)) (steady : Steady s) {id now : Nat}
    {e : MetaEntry} (member : (id,e) ∈ outbox s) (frames : s'.k.frames = s.k.frames)
    (published : s'.k.published = s.k.published ++ [⟨id,{e with dqbufTimestampNs := now}⟩])
    (left : outbox s' = (outbox s).filter (fun w => w.1 ≠ id)) :
    Step (books (d.put c s)) (books (d.put c s')) := by
  have full : (books (d.put c s)).slot id e := (slotPut id e).mpr (.inl member)
  obtain ⟨f, inside, _, rfl⟩ := producedFrame (accounts.balanced.held id e full).1
  have same : ({f.entry with dqbufTimestampNs := 0} : MetaEntry) = f.entry := by
    rw [← accounts.numbered.unstamped f inside]
  refine .deliver id f.entry full (congrArg (List.map _) frames) ?_ ?_
  · show s'.k.published.map unstamped = s.k.published.map unstamped ++ [(id,f.entry)]
    rw [published, List.map_append]
    simp [unstamped, same]
  · intro id' x
    rw [slotPut, slotPut, left, List.mem_filter, decide_eq_true_iff]
    constructor
    · rintro (⟨here, differ⟩ | ⟨c', other, there⟩)
      · exact ⟨.inl here,differ⟩
      · refine ⟨.inr ⟨c',other,there⟩,?_⟩
        rintro rfl
        exact othersApart accounts (outboxOwned steady member) other x there
    · rintro ⟨here | there, differ⟩
      · exact .inl ⟨here,differ⟩
      · exact .inr there

theorem produceLedger {s' : Sys} (accounts : Accounts (d.put c s)) {f : Frame}
    (frames : s'.k.frames = s.k.frames ++ [f]) (published : s'.k.published = s.k.published)
    (number : f.entry.seq = s.k.frames.length + 1) (inside : f.target ∈ (s.queue .capture).ids)
    (empty : ∀ e, (f.target,e) ∉ outbox s) (left : outbox s' = outbox s ++ [(f.target,f.entry)]) :
    Step (books (d.put c s)) (books (d.put c s')) := by
  refine .produce f.target f.entry ?_ ?_ ?_ (congrArg (List.map _) published) ?_
  · intro x full
    rcases (slotPut f.target x).mp full with here | ⟨c', other, there⟩
    · exact empty x here
    · exact othersApart accounts inside other x there
  · -- The number of a new frame is above all numbers given out.
    intro member
    obtain ⟨g, old, _, same⟩ := producedFrame member
    have below : g.entry.seq ≤ s.k.frames.length := (numberedSeq accounts.numbered old).2
    rw [same, number] at below
    omega
  · show s'.k.frames.map _ = s.k.frames.map _ ++ _
    rw [frames, List.map_append]
    rfl
  · intro id' x
    rw [slotPut, slotPut, left, List.mem_append, List.mem_singleton, Prod.mk.injEq]
    exact or_right_comm

theorem ledgerMove (accounts : Accounts (d.put c s)) (steady : Steady s) (effect : Effect s l (move s l))
    (small : (move s l).k.frames.length < 2^64) : Step (books (d.put c s)) (books (d.put c (move s l))) := by
  have numbers : Numbered (move s l).k := numberedMove accounts.numbered effect small
  cases effect with
  | quiet books same => exact quietLedger books.frames books.published same
  | refused _ _ _ kernel same => exact quietLedger (by rw [kernel]) (by rw [kernel]) same
  | cancelled id e _ full kernel left =>
    exact deliverLedger accounts steady full (by rw [kernel]; rfl) (by rw [kernel]; rfl) left
  | dequeued id e _ _ _ full kernel _ left _ =>
    have member : (id,e) ∈ outbox s := by simp [full]
    exact deliverLedger accounts steady member (by rw [kernel]; rfl) (by rw [kernel]; rfl) left
  | processed f _ _ frames _ number _ _ published _ inside empty left =>
    refine produceLedger accounts frames published ?_ inside empty left
    rw [number, numbers.sequence, frames, List.length_append]
    rfl

theorem effectFrames {s' : Sys} (effect : Effect s l s') : ∀ f ∈ s'.k.frames,
    f ∈ s.k.frames ∨ f.target ∈ (s.queue .capture).ids := by
  intro f member
  cases effect with
  | quiet books _ => exact .inl (books.frames ▸ member)
  | refused _ _ _ kernel _ => rw [kernel] at member; exact .inl member
  | cancelled _ _ _ _ kernel _ => rw [kernel] at member; exact .inl member
  | dequeued _ _ _ _ _ _ kernel _ _ _ => rw [kernel] at member; exact .inl member
  | processed g _ _ frames _ _ _ _ _ _ inside _ _ =>
    rw [frames, List.mem_append, List.mem_singleton] at member
    rcases member with old | rfl
    · exact .inl old
    · exact .inr inside

theorem idsMove (base : Base s) (allowed : Allowed s l) {t : QType} {id : Nat}
    (member : id ∈ ((move s l).queue t).ids) :
    id ∈ (s.queue t).ids ∨ (id = s.k.machine.next ∧ Allocates t l) := by
  generalize queue : (move s l).queue t = q at member
  cases changedMove base allowed queue with
  | allocate made =>
    rw [Queue.allocate, List.mem_append, List.mem_singleton] at member
    exact member.imp_right (fun new => ⟨new,_,_,_,made⟩)
  | completed _ _ _ _ =>
    rw [completeIds] at member
    exact .inl member
  | freed _ => simp [Queue.free] at member
  | _ => exact .inl member

theorem idsPut (base : Base s) (allowed : Allowed s l) {c' : Nat} {t : QType} {id : Nat}
    (member : id ∈ ((d.put c (move s l)).queue c' t).ids) :
    id ∈ ((d.put c s).queue c' t).ids ∨ (id = s.k.machine.next ∧ c' = c ∧ Allocates t l) := by
  rw [putQueue] at member ⊢
  by_cases same : c' = c
  · rw [if_pos same] at member ⊢
    exact (idsMove base allowed member).imp_right (fun new => ⟨new.1,same,new.2⟩)
  · rw [if_neg same] at member ⊢
    exact .inl member

theorem namesMove (names : Names (d.put c s)) (steady : Steady s) (allowed : Allowed s l)
    (effect : Effect s l (move s l)) : Names (d.put c (move s l)) := by
  have later : s.k.machine.next ≤ (move s l).k.machine.next := (moveGrows s allowed).next
  have old : ∀ {c' t id}, id ∈ ((d.put c s).queue c' t).ids → id < s.k.machine.next :=
    fun member => names.fresh _ _ _ member
  refine ⟨?_,?_,?_,?_⟩
  · intro c' t id member
    rcases idsPut steady.toBase allowed member with before | ⟨rfl, _, memory, size, slack, rfl⟩
    · exact Nat.lt_of_lt_of_le (old before) later
    · exact Nat.lt_succ_self _
  · intro c1 t1 c2 t2 id one two
    rcases idsPut steady.toBase allowed one with one | ⟨new, same, made⟩ <;>
      rcases idsPut steady.toBase allowed two with two | ⟨new', same', made'⟩
    · exact names.apart c1 t1 c2 t2 id one two
    · exact absurd (old one) (by omega)
    · exact absurd (old two) (by omega)
    · obtain ⟨_, _, _, rfl⟩ := made
      obtain ⟨_, _, _, made'⟩ := made'
      cases made'
      exact ⟨same.trans same'.symm,rfl⟩
  · intro f member
    have before : f.target < s.k.machine.next ∧ ∀ c', f.target ∉ ((d.put c s).queue c' .output).ids := by
      rcases effectFrames effect f member with known | inside
      · exact names.targets f known
      · have here : f.target ∈ ((d.put c s).queue c .capture).ids := by rwa [putQueue, if_pos rfl]
        exact ⟨old here,fun c' output => nomatch (names.apart _ _ _ _ _ here output).2⟩
    refine ⟨Nat.lt_of_lt_of_le before.1 later,fun c' output => ?_⟩
    rcases idsPut steady.toBase allowed output with known | ⟨new, _⟩
    · exact before.2 c' known
    · exact absurd before.1 (by omega)
  · intro c' w member
    rw [putQueue] at member ⊢
    by_cases same : c' = c
    · rw [if_pos same] at member ⊢
      exact outboxOwned (steadyMove steady allowed) member
    · rw [if_neg same] at member ⊢
      have owned := names.owned c' w
      rw [putQueue, if_neg same] at owned
      exact owned member

theorem accountsMove (accounts : Accounts (d.put c s)) (steady : Steady s) (allowed : Allowed s l)
    (small : (move s l).k.frames.length < 2^64) : Accounts (d.put c (move s l)) := by
  obtain ⟨effect, slots⟩ := effectMove steady allowed (accountsSlots accounts) (accountsLive accounts)
  refine ⟨numberedMove accounts.numbered effect small,namesMove accounts.names steady allowed effect,?_,
    balancedStep accounts.balanced (ledgerMove accounts steady effect small)⟩
  intro c'
  have others := accounts.slots c'
  rw [putQueue] at others ⊢
  by_cases same : c' = c
  · rw [if_pos same]; exact slots
  · rwa [if_neg same] at others ⊢

end Move

theorem accountsRun {d : Dev} {c : Nat} {s : Sys} {ls : List Move} (accounts : Accounts (d.put c s))
    (steady : Steady s) (meets : Meets move Allowed s ls) (small : (run move s ls).k.frames.length < 2^64) :
    Accounts (d.put c (run move s ls)) ∧ Steady (run move s ls) := by
  have keeps : ∀ s l, Accounts (d.put c s) ∧ Steady s → Allowed s l ∧ (move s l).k.frames.length < 2^64 →
      Accounts (d.put c (move s l)) ∧ Steady (move s l) :=
    fun s l so ok => ⟨accountsMove so.1 so.2 ok.1 ok.2,steadyMove so.2 ok.1⟩
  exact runInvariant keeps ⟨accounts,steady⟩ (meetsAnd meets (meetsBounded framesGrow small))

theorem putSelf {d : Dev} {c : Nat} {x : Ctx} (there : d.ctxs c = some x) : d.put c ⟨d.k,x⟩ = d := by
  unfold Dev.put
  rw [← there, Function.update_eq_self]

theorem accountsIoctl {d : Dev} {c : Nat} {x : Ctx} (accounts : Accounts d) (there : d.ctxs c = some x)
    (sane : Sane ⟨d.k,x⟩) (e : Event) (small : (Sys.step ⟨d.k,x⟩ e).k.frames.length < 2^64) :
    Accounts (d.put c (Sys.step ⟨d.k,x⟩ e)) := by
  rw [← putSelf there] at accounts
  rw [stepMoves] at small ⊢
  exact (accountsRun accounts sane.toSteady (stepAllowed sane.toBase sane.rest e) small).1

theorem accountsSame {d d' : Dev} (accounts : Accounts d) (same : SameBooks d.k d'.k)
    (later : d.k.machine.next ≤ d'.k.machine.next) (queues : ∀ c, (∀ t, d'.queue c t = d.queue c t) ∨
      (∀ t, d'.queue c t = Queue.empty blankBuf) ∧ waiting (d.queue c .capture) = []) : Accounts d' := by
  obtain ⟨numbered, names, slots, balanced⟩ := accounts
  have ids : ∀ {c t id}, id ∈ (d'.queue c t).ids → id ∈ (d.queue c t).ids := by
    intro c t id member
    rcases queues c with kept | ⟨gone, _⟩
    · rwa [kept] at member
    · simp [gone, Queue.empty] at member
  have entries : ∀ c, waiting (d'.queue c .capture) = waiting (d.queue c .capture) := by
    intro c
    rcases queues c with kept | ⟨gone, none_⟩
    · rw [kept]
    · rw [gone, none_]; rfl
  refine ⟨numberedSame numbered same,⟨?_,?_,?_,?_⟩,?_,?_⟩
  · exact fun c t id member => Nat.lt_of_lt_of_le (names.fresh c t id (ids member)) later
  · exact fun c t c' t' id one two => names.apart c t c' t' id (ids one) (ids two)
  · intro f member
    rw [same.frames] at member
    obtain ⟨old, output⟩ := names.targets f member
    exact ⟨Nat.lt_of_lt_of_le old later,fun c inside => output c (ids inside)⟩
  · intro c w member
    rcases queues c with kept | ⟨gone, none_⟩
    · rw [kept] at member ⊢
      exact names.owned c w member
    · rw [entries, none_] at member
      simp at member
  · intro c
    rcases queues c with kept | ⟨gone, _⟩
    · rw [kept]; exact slots c
    · rw [gone]; exact ⟨by simp [Queue.empty],by simp [Queue.empty]⟩
  · refine quietBalanced balanced ?_ ?_ (fun id e => ?_)
    · exact congrArg (List.map _) same.frames
    · exact congrArg (List.map _) same.published
    · simp only [books, entries]

theorem dropAllowed {s : Sys} {t : QType} (base : Base s)
    (rests : (s.queue t).streaming = false → Inactive t s) :
    Meets move Allowed s (cancelMoves s t ++ [.free t]) := by
  obtain ⟨meets, back⟩ := cancelAllowed base rests
  rw [meetsAppend]
  exact ⟨meets,back,trivial⟩

theorem accountsDrop {d : Dev} {c : Nat} {s : Sys} {t : QType} (accounts : Accounts (d.put c s))
    (steady : Steady s) (rests : (s.queue t).streaming = false → Inactive t s)
    (small : (drop s t).k.frames.length < 2^64) :
    Accounts (d.put c (drop s t)) ∧ Steady (drop s t) := by
  rw [← droppedMoves] at small ⊢
  exact accountsRun accounts steady (dropAllowed steady.toBase rests) small

theorem dropGrows (s : Sys) (t : QType) : s.k.frames.length ≤ (drop s t).k.frames.length := by
  rw [← droppedMoves]
  exact framesGrowRun s _

theorem sourceDroppedSteady {s : Sys} (sane : Sane s) : Steady (sourceDropped s) :=
  have later : s.k.machine.next ≤ (sourceDropped s).k.machine.next := (destroySilent s.k.machine s.c.src).next
  ⟨⟨fun t => soundLater (sane.sound t) later,sane.geometry,sane.mirrored⟩,sane.capture⟩

theorem dropRests {s : Sys} (sane : Sane s) :
    ((drop (sourceDropped s) .capture).queue .output).streaming = false →
      Inactive .output (drop (sourceDropped s) .capture) := by
  unfold Inactive
  rw [dropOther _ (by decide)]
  exact sane.rest .output

theorem accountsRelease {d : Dev} {c : Nat} {x : Ctx} (accounts : Accounts d) (there : d.ctxs c = some x)
    (sane : Sane ⟨d.k,x⟩) (small : (vpipeRelease ⟨d.k,x⟩).k.frames.length < 2^64) :
    Accounts ⟨(vpipeRelease ⟨d.k,x⟩).k,Function.update d.ctxs c none⟩ := by
  rw [releaseDrops] at small ⊢
  generalize opened : (⟨d.k,x⟩ : Sys) = s at *
  -- The source goes first; neither queue nor book is touched.
  have later : s.k.machine.next ≤ (sourceDropped s).k.machine.next := (destroySilent s.k.machine s.c.src).next
  have start : Accounts (d.put c (sourceDropped s)) := by
    refine accountsSame (d := d.put c s) ?_ ⟨rfl,rfl,rfl,rfl,rfl⟩ later (fun c' => .inl (fun t => ?_))
    · rw [← opened, putSelf there]; exact accounts
    · rw [putQueue, putQueue]; rfl
  have shorter := Nat.lt_of_le_of_lt (dropGrows (drop (sourceDropped s) .capture) .output) small
  obtain ⟨first, between⟩ := accountsDrop start (sourceDroppedSteady sane) (sane.rest .capture) shorter
  obtain ⟨last, _⟩ := accountsDrop first between (dropRests sane) small
  refine accountsSame last ⟨rfl,rfl,rfl,rfl,rfl⟩ (Nat.le_refl _) (fun c' => ?_)
  by_cases same : c' = c
  · refine .inr ⟨fun t => by simp [Dev.queue, same],?_⟩
    rw [putQueue, if_pos same, dropOther _ (by decide), waiting, dropEmpty]
    rfl
  · refine .inl (fun t => ?_)
    rw [putQueue, if_neg same]
    simp [Dev.queue, same]

theorem accountsOpen {d : Dev} {c : Nat} {env : OpenEnv} {s : Sys} (accounts : Accounts d)
    (free : d.ctxs c = none) (opened : vpipeOpen d.k c env = .ok s) : Accounts (d.put c s) := by
  obtain ⟨src, m, created, rfl⟩ := openCases opened
  refine accountsSame accounts ⟨rfl,rfl,rfl,rfl,rfl⟩ (createSilent created).next (fun c' => .inl (fun t => ?_))
  rw [putQueue]
  split
  · simp [Dev.queue, Sys.queue, *]
  · rfl

structure Coherent (d : Dev) : Prop where
  sane : ∀ c x, d.ctxs c = some x → Sane ⟨d.k,x⟩
  accounts : Accounts d

theorem saneLater {k k' : Kernel} {x : Ctx} (sane : Sane ⟨k,x⟩) (later : k.machine.next ≤ k'.machine.next) :
    Sane ⟨k',x⟩ :=
  ⟨⟨⟨fun t => soundLater (sane.sound t) later,sane.geometry,sane.mirrored⟩,sane.capture⟩,sane.rest⟩

theorem runNext {s : Sys} {ls : List Move} (meets : Meets move Allowed s ls) :
    s.k.machine.next ≤ (run move s ls).k.machine.next := by
  have keeps : ∀ s' l, s.k.machine.next ≤ s'.k.machine.next → Allowed s' l →
      s.k.machine.next ≤ (move s' l).k.machine.next :=
    fun s' l so allowed => Nat.le_trans so (moveGrows s' allowed).next
  exact runInvariant keeps (Nat.le_refl _) meets

theorem releaseNext {s : Sys} (sane : Sane s) : s.k.machine.next ≤ (vpipeRelease s).k.machine.next := by
  have later : s.k.machine.next ≤ (sourceDropped s).k.machine.next := (destroySilent s.k.machine s.c.src).next
  have base := (sourceDroppedSteady sane).toBase
  have first := dropAllowed (t := .capture) base (sane.rest .capture)
  have between := runBase base first
  rw [droppedMoves] at between
  have second := dropAllowed between (dropRests sane)
  have one := runNext first
  have two := runNext second
  rw [droppedMoves] at one two
  rw [releaseDrops]
  exact Nat.le_trans later (Nat.le_trans one two)

theorem sanePut {d : Dev} {c : Nat} {s : Sys} (sane : ∀ c x, d.ctxs c = some x → Sane ⟨d.k,x⟩)
    (later : d.k.machine.next ≤ s.k.machine.next) (here : Sane s) :
    ∀ c' x, (d.put c s).ctxs c' = some x → Sane ⟨s.k,x⟩ := by
  intro c' x there
  by_cases same : c' = c
  · simp only [Dev.put, same, Function.update_self] at there
    cases there
    exact here
  · simp only [Dev.put, Function.update_of_ne same] at there
    exact saneLater (sane c' x there) later

theorem coherentStep {d : Dev} {e : DevEvent} (coherent : Coherent d)
    (small : (d.step e).k.frames.length < 2^64) : Coherent (d.step e) := by
  obtain ⟨sane, accounts⟩ := coherent
  cases e with
  | open_ c env =>
    simp only [Dev.step]
    split
    · rename_i s free opened
      have later : d.k.machine.next ≤ s.k.machine.next := by
        obtain ⟨src, m, created, rfl⟩ := openCases opened
        exact (createSilent created).next
      exact ⟨sanePut sane later (openSane opened).1,accountsOpen accounts free opened⟩
    · exact ⟨sane,accounts⟩
  | release c =>
    cases there : d.ctxs c with
    | none =>
      simp only [Dev.step, there]
      exact ⟨sane,accounts⟩
    | some x =>
      simp only [Dev.step, there] at small ⊢
      refine ⟨?_,accountsRelease accounts there (sane c x there) small⟩
      intro c' x' open_
      by_cases same : c' = c
      · simp [same] at open_
      · simp only [Function.update_of_ne same] at open_
        exact saneLater (sane c' x' open_) (releaseNext (sane c x there))
  | ioctl c e =>
    cases there : d.ctxs c with
    | none =>
      simp only [Dev.step, there]
      exact ⟨sane,accounts⟩
    | some x =>
      simp only [Dev.step, there] at small ⊢
      have here := sane c x there
      have later : d.k.machine.next ≤ (Sys.step ⟨d.k,x⟩ e).k.machine.next := by
        rw [stepMoves]
        exact runNext (stepAllowed here.toBase here.rest e)
      exact ⟨sanePut sane later (saneStep here e),accountsIoctl accounts there here e small⟩

theorem framesGrowDev (d : Dev) (e : DevEvent) : d.k.frames.length ≤ (d.step e).k.frames.length := by
  cases e with
  | open_ c env =>
    simp only [Dev.step]
    split
    · rename_i s _ opened
      obtain ⟨src, m, _, rfl⟩ := openCases opened
      exact Nat.le_refl _
    · exact Nat.le_refl _
  | release c =>
    simp only [Dev.step]
    split
    · rw [releaseDrops]
      exact Nat.le_trans (dropGrows (sourceDropped ⟨d.k,_⟩) .capture) (dropGrows _ .output)
    · exact Nat.le_refl _
  | ioctl c e =>
    simp only [Dev.step]
    split
    · exact framesGrowStep ⟨d.k,_⟩ e
    · exact Nat.le_refl _

theorem coherentBoot (clock : Nat → Nat) (params : Params) : Coherent (Dev.boot clock params) := by
  have none_ : ∀ c t, (Dev.boot clock params).queue c t = Queue.empty blankBuf := fun _ _ => rfl
  refine ⟨by simp [Dev.boot],⟨rfl,rfl,by simp [Dev.boot, Kernel.boot],rfl⟩,⟨?_,?_,?_,?_⟩,?_,?_⟩
  · simp [none_, Queue.empty]
  · simp [none_, Queue.empty]
  · simp [Dev.boot, Kernel.boot]
  · simp [none_, waiting, Queue.empty]
  · exact fun c => ⟨by simp [none_, Queue.empty],by simp [none_, Queue.empty]⟩
  · refine quietBalanced balancedEmpty rfl rfl (fun id e => ?_)
    simp [books, none_, waiting, Queue.empty]

/- What exactly once means for the frames processed and the rows published so far. -/
structure ExactlyOnce (d : Dev) : Prop where
  numbers : d.k.frames.map (fun f => f.entry.seq) = List.range' 1 d.k.frames.length
  ring : d.k.metaDev = d.k.published.foldl (fun m p => vpipeMetaPublish m p.entry) MetaDev.init
  once : (d.k.published.map (fun p => p.entry.seq)).Nodup
  genuine : ∀ p ∈ d.k.published, ∃ f ∈ d.k.frames, RowFor f p
  -- A frame not yet published is in its CAPTURE buffer, completed and not given back.
  complete : ∀ f ∈ d.k.frames, (∃ p ∈ d.k.published, RowFor f p) ∨
    ∃ c, (f.target,f.entry) ∈ waiting (d.queue c .capture)
  inTime : d.k.frames.Pairwise (fun f g => f.target = g.target → ∃ p ∈ d.k.published, RowFor f p)
  captureOnly : ∀ p ∈ d.k.published, ∀ c, p.buffer ∉ (d.queue c .output).ids

theorem deliveredRow {d : Dev} {f : Frame} (member : (f.target,f.entry) ∈ (books d).delivered) :
    ∃ p ∈ d.k.published, RowFor f p := by
  obtain ⟨p, inside, same⟩ := List.mem_map.mp member
  refine ⟨p,inside,congrArg Prod.fst same,?_⟩
  have entry : {p.entry with dqbufTimestampNs := 0} = f.entry := congrArg Prod.snd same
  rw [← entry]

theorem exactlyOnceAccounts {d : Dev} (accounts : Accounts d) : ExactlyOnce d := by
  obtain ⟨numbered, names, slots, balanced⟩ := accounts
  have genuine : ∀ p ∈ d.k.published, ∃ f ∈ d.k.frames, RowFor f p := by
    intro p member
    obtain ⟨f, inside, target, entry⟩ :=
      producedFrame (balanced.genuine (unstamped p) (List.mem_map_of_mem member))
    refine ⟨f,inside,target.symm,?_⟩
    rw [entry]
  refine ⟨numbered.seqs,numbered.ring,?_,genuine,?_,?_,?_⟩
  · -- Rows of one number come from one frame, and that frame is delivered once.
    have seqs : (d.k.frames.map (fun f => f.entry.seq)).Nodup := by
      rw [numbered.seqs]
      exact List.nodup_range'
    have rows : d.k.published.map (fun p => p.entry.seq) = (d.k.published.map unstamped).map
        (fun w => w.2.seq) := by
      rw [List.map_map]
      rfl
    rw [rows]
    refine balanced.once.map_on ?_
    rintro ⟨id, e⟩ one ⟨id', e'⟩ two same
    obtain ⟨f, inF, rfl, rfl⟩ := producedFrame (balanced.genuine _ one)
    obtain ⟨g, inG, rfl, rfl⟩ := producedFrame (balanced.genuine _ two)
    rw [List.inj_on_of_nodup_map seqs inF inG same]
  · intro f member
    exact (balanced.covered f.target f.entry (List.mem_map_of_mem member)).imp_left deliveredRow
  · have order := List.pairwise_map.mp balanced.order
    exact order.imp (fun before same => deliveredRow (before same))
  · intro p member c
    obtain ⟨f, inside, target, _⟩ := genuine p member
    rw [target]
    exact (names.targets f inside).2 c

/-- Every frame processed by any context is published exactly once, with the data of that frame,
when its CAPTURE buffer is given back and before the buffer is used again; nothing else is. -/
theorem publishedExactlyOnce {clock : Nat → Nat} {params : Params} {events : List DevEvent}
    (small : (run Dev.step (Dev.boot clock params) events).k.frames.length < 2^64) :
    ExactlyOnce (run Dev.step (Dev.boot clock params) events) := by
  have keeps : ∀ d e, Coherent d → (d.step e).k.frames.length < 2^64 → Coherent (d.step e) :=
    fun _ _ coherent short => coherentStep coherent short
  exact exactlyOnceAccounts
    (runInvariant keeps (coherentBoot clock params) (meetsBounded framesGrowDev small)).accounts

def twoContexts : List DevEvent :=
  let prepare : List Event := [.sFmt .output {width := 1, height := 1},.reqbufs .output 2 .mmap 0 2,
    .reqbufs .capture 2 .mmap 0 2,.qbuf .output 0 0 none,.qbuf .capture 0 0 none,.streamon .output {},
    .streamon .capture {},.deviceRun 0]
  [.open_ 0 {},.open_ 1 {}] ++ prepare.map (.ioctl 0) ++ prepare.map (.ioctl 1) ++
    [.ioctl 1 (.dqbuf .capture),.release 0]

theorem twoContextsPublished : ExactlyOnce (run Dev.step (Dev.boot (fun n => n + 1) {}) twoContexts) :=
  publishedExactlyOnce (by decide)

end Vpipe.Device
