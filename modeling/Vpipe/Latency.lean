import Vpipe.Percentile
import Vpipe.Session

/-! The end of run_one: the latencies and the occupancy the runner reports, against the percentile() and
the median of summarize-benchmark.py on the latencies of the rows it wrote. -/
namespace Vpipe.Latency
open Vpipe.Lib Vpipe.Lib.Word Vpipe.Lib.Floating Vpipe.Lib.Outcome
open Vpipe.M2m Vpipe.Tools Vpipe.Runner Vpipe.Accounting Vpipe.Percentile

structure Report where
  latMedianNs : Nat
  latP95Ns : Nat
  latP99Ns : Nat
  occMean : Double
  occMax : Nat

def occSum (rounds : List Round) : Double :=
  rounds.foldl (fun sum round => sum + .ofNat round.inflight) (.ofNat 0)

def report (cfg : Config) (r : Locals) : Report :=
  let lat := qsort cmpU64 r.lat
  { latMedianNs := percentile lat cfg.frames (literal 1 2)
    latP95Ns := percentile lat cfg.frames (literal 95 100)
    latP99Ns := percentile lat cfg.frames (literal 99 100)
    occMean := if cfg.frames ≠ 0 then occSum r.rounds / .ofNat cfg.frames else .ofNat 0
    occMax := r.stats.occMax }

structure Books where
  qbufRing : Nat → Nat
  lat : List Nat
  submitted : Nat
  completed : Nat
  csv : List CsvRow
  readings : Nat
  stamps : List Nat
  rounds : List Round
  occMax : Nat

def books (r : Locals) : Books :=
  ⟨r.qbufRing,r.lat,r.submitted,r.completed,r.csv,r.readings,r.stamps,r.rounds,r.stats.occMax⟩

def Books.took (b : Books) (row : CsvRow) : Books :=
  {b with lat := b.lat ++ [row.usLatencyNs], csv := b.csv ++ [row], completed := b.completed + 1}

def Books.noted (b : Books) (place i now : Nat) : Books :=
  {b with readings := i + 1, qbufRing := Function.update b.qbufRing place now, stamps := b.stamps ++ [now]}

def Books.sent (b : Books) : Books := {b with submitted := b.submitted + 1}

def Books.saw (b : Books) (round : Round) : Books := {b with rounds := b.rounds ++ [round]}

theorem tookBooks (r : Locals) {st : RunStats} (row : CsvRow) (most : st.occMax = r.stats.occMax) :
    books {r with
      lat := r.lat ++ [row.usLatencyNs], stats := st, csv := r.csv ++ [row], completed := r.completed + 1} =
      (books r).took row := by
  simp only [books, Books.took, most]

section Calls

variable {env : Env} {cfg : Config} {r : Locals}

theorem dqbufBooks (t : QType) : Ensures (dqbuf env t r) (fun out => books out.2 = books r) := by
  unfold dqbuf
  split
  · exact ensuresError
  · exact ensuresOk rfl

theorem qbufBooks (t : QType) (index : Nat) (att : Option Attachment) :
    Ensures (qbuf env t index att r) (fun r' => books r' = books r) := by
  unfold qbuf
  split
  · exact ensuresError
  · exact ensuresOk rfl

theorem readMetaBooks : Ensures (readMeta env r) (fun out => books out.2 = books r) := by
  unfold readMeta
  split
  · exact ensuresOk rfl
  · simp only
    split
    · exact ensuresError
    · exact ensuresOk rfl
    · exact ensuresOk rfl

theorem paceBooks (env : Env) (r : Locals) :
    ∃ i, r.readings ≤ i ∧ books (pace env r) = {books r with readings := i} := by
  unfold pace
  split
  · exact ⟨_,Nat.le_refl _,rfl⟩
  · simp only
    split
    · exact ⟨_,Nat.le_succ _,rfl⟩
    · exact ⟨_,Nat.le_refl _,rfl⟩

theorem submitBooks (buffer : BufferKind) (frameNo index : Nat) :
    Ensures (submitOutput env cfg buffer frameNo index r) (fun r' => ∃ i, r.readings ≤ i ∧
      books r' = (books r).noted (frameNo % cfg.queueDepth) i (env.clock i)) := by
  obtain ⟨i, later, paced⟩ := paceBooks env r
  have reading : (pace env r).readings = i := congrArg Books.readings paced
  have noted : (books (pace env r)).noted (frameNo % cfg.queueDepth) i (env.clock i) =
      (books r).noted (frameNo % cfg.queueDepth) i (env.clock i) := by rw [paced]; rfl
  unfold submitOutput
  simp only [vpipeNowMonotonicNs, reading]
  cases buffer with
  | dmabuf => exact ensuresImp (qbufBooks _ _ _) (fun r' same => ⟨i,later,same.trans noted⟩)
  | mmap =>
    refine ensuresImp (qbufBooks _ _ _) (fun r' same => ⟨i,later,same.trans ?_⟩)
    cases cfg.source with
    | fixture => exact noted
    | vcam => exact noted

theorem accountedOccMax (st : RunStats) (entry : Option MetaEntry) (crcUser : Nat) (pattern : Bool) :
    (accounted cfg st entry crcUser pattern).2.occMax = st.occMax := by
  cases entry <;> simp only [accounted] <;> split_ifs <;> rfl

theorem accountBooks (inflight tDq : Nat) (capDq : V4l2Buffer) :
    Ensures (account env cfg inflight tDq capDq r) (fun out => out.1.inflight = inflight ∧ ∃ row,
      books out.2 = (books r).took row ∧ row.usQbufNs = r.qbufRing (r.completed % cfg.queueDepth) ∧
      row.usDqbufNs = tDq ∧ row.usLatencyNs = u64 (tDq + 2^64 - row.usQbufNs)) := by
  unfold account
  simp only
  refine ensuresBind readMetaBooks ?_
  rintro ⟨entry, r'⟩ same
  refine ensuresOk ⟨rfl,_,(tookBooks (yield env r') (csvRow _ _ _ _ _ _ _) (accountedOccMax _ _ _ _)).trans
    (congrArg (fun b : Books => b.took _) same),?_,rfl,rfl⟩
  show r'.qbufRing (r'.completed % cfg.queueDepth) = _
  rw [show r'.qbufRing = r.qbufRing from congrArg Books.qbufRing same,
    show r'.completed = r.completed from congrArg Books.completed same]

end Calls

/- CLOCK_MONOTONIC never goes back, and a run takes less than 104 days. -/
structure Steady (env : Env) : Prop where
  forward : ∀ i j, i ≤ j → env.clock i ≤ env.clock j
  word : ∀ i, env.clock i < 2^64
  span : ∀ i, env.clock i ≤ env.clock 0 + 2^53

structure Timed (stamps : List Nat) (n : Nat) (row : CsvRow) : Prop where
  queued : stamps[n]? = some row.usQbufNs
  ordered : row.usQbufNs ≤ row.usDqbufNs
  latency : row.usLatencyNs = row.usDqbufNs - row.usQbufNs
  small : row.usLatencyNs ≤ 2^53

structure Clocked (env : Env) (cfg : Config) (b : Books) : Prop where
  ring : Ring.Holds (fun i : Fin cfg.queueDepth => b.qbufRing i) b.stamps
  early : ∀ t ∈ b.stamps, ∃ i, i < b.readings ∧ t = env.clock i
  rows : b.csv.length = b.completed
  each : ∀ n row, b.csv[n]? = some row → Timed b.stamps n row
  lat : b.lat = b.csv.map CsvRow.usLatencyNs

section Loops

variable {env : Env} {cfg : Config} {b : Books}

theorem clockedNoted (clocked : Clocked env cfg b) {i : Nat} (later : b.readings ≤ i) :
    Clocked env cfg (b.noted (b.stamps.length % cfg.queueDepth) i (env.clock i)) := by
  constructor
  case ring => exact ringPush clocked.ring _
  case early =>
    intro t member
    rcases List.mem_append.mp member with old | new
    · obtain ⟨j, before, at_⟩ := clocked.early t old
      exact ⟨j,show j < i + 1 by omega,at_⟩
    · exact ⟨i,Nat.lt_succ_self i,List.mem_singleton.mp new⟩
  case rows => exact clocked.rows
  case each =>
    intro n row found
    have timed := clocked.each n row found
    exact {timed with queued := Fifo.prefixGet (List.prefix_append _ _) timed.queued}
  case lat => exact clocked.lat

theorem clockedTook (steady : Steady env) (clocked : Clocked env cfg b) (waits : b.completed < b.stamps.length)
    (near : b.stamps.length ≤ b.completed + cfg.queueDepth) {row : CsvRow}
    (slot : row.usQbufNs = b.qbufRing (b.completed % cfg.queueDepth))
    (taken : row.usDqbufNs = env.clock b.readings)
    (latency : row.usLatencyNs = u64 (row.usDqbufNs + 2^64 - row.usQbufNs)) :
    Clocked env cfg ({b with readings := b.readings + 1}.took row) := by
  have found : b.stamps[b.completed]? = some b.stamps[b.completed] := List.getElem?_eq_getElem waits
  have stamped : b.stamps[b.completed]? = some row.usQbufNs := by
    rw [slot, found]
    exact congrArg some (clocked.ring _ _ found near).symm
  obtain ⟨j, before, at_⟩ := clocked.early _ (List.mem_of_getElem? stamped)
  have forward := steady.forward j b.readings before.le
  have since := steady.forward 0 j (Nat.zero_le j)
  have span := steady.span b.readings
  have word := steady.word b.readings
  have exact_ : row.usLatencyNs = row.usDqbufNs - row.usQbufNs := by
    rw [latency]
    unfold u64
    omega
  constructor
  case ring => exact clocked.ring
  case early =>
    intro t member
    obtain ⟨j, before, at_⟩ := clocked.early t member
    exact ⟨j,Nat.lt_succ_of_lt before,at_⟩
  case rows => rw [Books.took, List.length_append, List.length_singleton, clocked.rows]
  case each =>
    intro n other at_'
    have listed : ({b with readings := b.readings + 1}.took row).csv = b.csv ++ [row] := rfl
    rw [listed] at at_'
    rcases Nat.lt_or_ge n b.csv.length with old | new
    · rw [List.getElem?_append_left old] at at_'
      exact clocked.each n other at_'
    · -- the new row is the last
      rw [List.getElem?_append_right new] at at_'
      obtain ⟨inside, same⟩ := List.getElem?_eq_some_iff.mp at_'
      rw [List.length_singleton] at inside
      have last : n = b.completed := by
        rw [← clocked.rows]
        omega
      have same_ : row = other := by simpa using same
      rw [← same_, last]
      exact ⟨stamped,by omega,exact_,by omega⟩
  case lat => rw [Books.took, List.map_append, ← clocked.lat]; rfl

structure Going (env : Env) (cfg : Config) (depth : Nat) (b : Books) : Prop where
  clocked : Clocked env cfg b
  stamped : b.stamps.length = b.submitted
  ahead : b.submitted ≤ min cfg.frames (b.completed + depth)
  seen : b.rounds.length = b.completed
  occupied : ∀ round ∈ b.rounds, 1 ≤ round.inflight ∧ round.inflight ≤ b.occMax
  most : b.occMax ≤ depth

variable {depth : Nat}

theorem goingNoted (going : Going env cfg depth b) (more : b.submitted < min cfg.frames (b.completed + depth))
    {i : Nat} (later : b.readings ≤ i) :
    Going env cfg depth (b.noted (b.submitted % cfg.queueDepth) i (env.clock i)).sent := by
  have noted := clockedNoted going.clocked later
  rw [going.stamped] at noted
  constructor
  case clocked => exact ⟨noted.ring,noted.early,noted.rows,noted.each,noted.lat⟩
  case stamped => exact (List.length_append ..).trans (congrArg (· + 1) going.stamped)
  case ahead => exact more
  case seen => exact going.seen
  case occupied => exact going.occupied
  case most => exact going.most

theorem goingTook (steady : Steady env) (going : Going env cfg depth b) (shallow : depth ≤ cfg.queueDepth)
    (more : b.completed < b.submitted) {row : CsvRow} {round : Round}
    (slot : row.usQbufNs = b.qbufRing (b.completed % cfg.queueDepth))
    (taken : row.usDqbufNs = env.clock b.readings)
    (latency : row.usLatencyNs = u64 (row.usDqbufNs + 2^64 - row.usQbufNs))
    (inflight : round.inflight = b.submitted - b.completed) : Going env cfg depth
      (({b with occMax := max b.occMax round.inflight, readings := b.readings + 1}.took row).saw round) := by
  have ahead := going.ahead
  have took := clockedTook steady going.clocked (by rw [going.stamped]; exact more)
    (by rw [going.stamped]; omega) slot taken latency
  have occMax := going.most
  constructor
  case clocked => exact ⟨took.ring,took.early,took.rows,took.each,took.lat⟩
  case stamped => exact going.stamped
  case ahead =>
    show b.submitted ≤ min cfg.frames (b.completed + 1 + depth)
    omega
  case seen => exact (List.length_append ..).trans (congrArg (· + 1) going.seen)
  case occupied =>
    intro other member
    show 1 ≤ other.inflight ∧ other.inflight ≤ max b.occMax round.inflight
    rcases List.mem_append.mp member with old | new
    · obtain ⟨some_, most⟩ := going.occupied other old
      omega
    · rw [List.mem_singleton.mp new]
      omega
  case most =>
    show max b.occMax round.inflight ≤ depth
    omega

theorem fillGoes {left : Nat} {r : Locals} (buffer : BufferKind) (going : Going env cfg depth (books r))
    (none_ : r.completed = 0) (enough : depth ≤ r.submitted + left) :
    Ensures (fillLoop env cfg buffer depth left r) (fun r' => Going env cfg depth (books r') ∧
      r'.submitted = min cfg.frames depth ∧ r'.completed = 0) := by
  have ahead : r.submitted ≤ min cfg.frames (r.completed + depth) := going.ahead
  induction left generalizing r with
  | zero => exact ensuresOk ⟨going,by omega,none_⟩
  | succ left ih =>
    rw [fillLoop]
    split
    · rename_i more
      refine ensuresBind (submitBooks buffer r.submitted r.submitted) ?_
      rintro r' ⟨i, later, same⟩
      have submitted : r'.submitted = r.submitted := congrArg Books.submitted same
      have completed : r'.completed = r.completed := congrArg Books.completed same
      have next : books {r' with submitted := r'.submitted + 1} =
          ((books r).noted (r.submitted % cfg.queueDepth) i (env.clock i)).sent := congrArg Books.sent same
      have noted := goingNoted going (show r.submitted < min cfg.frames (r.completed + depth) by omega) later
      refine ih (next ▸ noted) (completed.trans none_) ?_ ?_
      · show depth ≤ r'.submitted + 1 + left
        omega
      · show r'.submitted + 1 ≤ min cfg.frames (r'.completed + depth)
        omega
    · exact ensuresOk ⟨going,by omega,none_⟩

theorem refillBooks (buffer : BufferKind) (round : Round) (outIndex : Nat) {r : Locals} :
    Ensures (refill env cfg buffer round outIndex r) (fun r' => ∃ round', round'.inflight = round.inflight ∧
      if r.submitted < cfg.frames then ∃ i, r.readings ≤ i ∧
        books r' = ((books r).noted (r.submitted % cfg.queueDepth) i (env.clock i)).sent.saw round'
      else books r' = (books r).saw round') := by
  unfold refill
  split
  · refine ensuresBind (submitBooks buffer r.submitted outIndex) ?_
    rintro r' ⟨i, later, same⟩
    exact ensuresOk ⟨{round with requeued := some (submittedIndex buffer outIndex,_)},rfl,i,later,
      congrArg (fun b : Books => b.sent.saw _) same⟩
  · exact ensuresOk ⟨round,rfl,rfl⟩

theorem roundGoes (steady : Steady env) {r : Locals} (buffer : BufferKind)
    (going : Going env cfg depth (books r)) (shallow : 1 ≤ depth ∧ depth ≤ cfg.queueDepth)
    (full : r.submitted = min cfg.frames (r.completed + depth))
    (more : r.completed < cfg.frames) :
    Ensures (mainRound env cfg buffer r) (fun r' => Going env cfg depth (books r') ∧
      r'.submitted = min cfg.frames (r'.completed + depth) ∧ r'.completed = r.completed + 1) := by
  have range := cfg.framesRange
  have inflight : u32 (r.submitted + 2^32 - r.completed) = r.submitted - r.completed := by
    unfold u32
    unfold uintMax at range
    omega
  unfold mainRound
  simp only [inflight]
  refine ensuresBind (dqbufBooks .capture) ?_
  rintro ⟨capDq, r₁⟩ same₁
  simp only [vpipeNowMonotonicNs]
  split
  · exact ensuresError
  refine ensuresBind (accountBooks _ _ capDq) ?_
  rintro ⟨round, r₂⟩ ⟨occupied, row, same₂, slot, taken, latency⟩
  refine ensuresBind (qbufBooks .capture capDq.index none) ?_
  rintro r₃ same₃
  refine ensuresBind (dqbufBooks .output) ?_
  rintro ⟨outDq, r₄⟩ same₄
  refine ensuresImp (refillBooks buffer round outDq.index) ?_
  rintro r₅ ⟨round', equal, refilled⟩
  have seen : round'.inflight = r.submitted - r.completed := equal.trans occupied
  have before : books {r₁ with readings := r₁.readings + 1} =
      {books r with occMax := max r.stats.occMax round'.inflight, readings := r.readings + 1} := by
    rw [seen]
    exact congrArg (fun b : Books => {b with readings := b.readings + 1}) same₁
  have took : books r₄ =
      {books r with occMax := max r.stats.occMax round'.inflight, readings := r.readings + 1}.took row := by
    rw [same₄, same₃, same₂, before]
  have ring : r₁.qbufRing = r.qbufRing := congrArg Books.qbufRing same₁
  have completed₁ : r₁.completed = r.completed := congrArg Books.completed same₁
  have readings₁ : r₁.readings = r.readings := congrArg Books.readings same₁
  have submitted : r₄.submitted = r.submitted := congrArg Books.submitted took
  have completed : r₄.completed = r.completed + 1 := congrArg Books.completed took
  have next := goingTook steady going shallow.2 (show r.completed < r.submitted by omega)
    (slot.trans (by rw [ring, completed₁]; rfl)) (taken.trans (by rw [readings₁]; rfl)) (taken ▸ latency) seen
  split at refilled
  case isTrue more' =>
    have left : r.submitted < cfg.frames := submitted.symm.trans_lt more'
    obtain ⟨i, later, same₅⟩ := refilled
    rw [took] at same₅
    have going₅ := goingNoted next (i := i)
      (show r.submitted < min cfg.frames (r.completed + 1 + depth) by omega)
        ((congrArg Books.readings took).symm.trans_le later)
    rw [submitted] at same₅
    refine ⟨same₅ ▸ going₅,?_,?_⟩
    · rw [show r₅.submitted = r.submitted + 1 from congrArg Books.submitted same₅,
        show r₅.completed = r.completed + 1 from congrArg Books.completed same₅]
      omega
    · exact congrArg Books.completed same₅
  case isFalse last =>
    have none_ : ¬ r.submitted < cfg.frames := fun left => last (submitted.trans_lt left)
    rw [took] at refilled
    refine ⟨refilled ▸ next,?_,?_⟩
    · rw [show r₅.submitted = r.submitted from congrArg Books.submitted refilled,
        show r₅.completed = r.completed + 1 from congrArg Books.completed refilled]
      omega
    · exact congrArg Books.completed refilled

theorem mainGoes (steady : Steady env) {left : Nat} {r : Locals} (buffer : BufferKind)
    (going : Going env cfg depth (books r)) (shallow : 1 ≤ depth ∧ depth ≤ cfg.queueDepth)
    (full : r.submitted = min cfg.frames (r.completed + depth)) (within : r.completed ≤ cfg.frames)
    (enough : cfg.frames ≤ r.completed + left) :
    Ensures (mainLoop env cfg buffer left r) (fun r' => Going env cfg depth (books r') ∧
      r'.completed = cfg.frames) := by
  induction left generalizing r with
  | zero => exact ensuresOk ⟨going,by omega⟩
  | succ left ih =>
    rw [mainLoop]
    split
    · rename_i more
      refine ensuresBind (roundGoes steady buffer going shallow full more) ?_
      rintro r' ⟨going', full', completed⟩
      exact ih going' full' (by omega) (by omega)
    · exact ensuresOk ⟨going,by omega⟩

theorem setUpBooks (buffer : BufferKind) (outInflight : Nat) (k : Kernel) (ident : Nat)
    (statics : Crc.Statics) :
    Ensures (setUp env cfg buffer outInflight k ident statics)
      (fun r => books r = ⟨fun _ => 0,[],0,0,[],0,[],[],0⟩) := by
  unfold setUp
  repeat refine ensuresAny (fun _ => ?_)
  exact ensuresOk rfl

theorem emptyGoes (env : Env) (cfg : Config) (depth : Nat) :
    Going env cfg depth ⟨fun _ => 0,[],0,0,[],0,[],[],0⟩ := by
  refine ⟨⟨Ring.holdsEmpty _,?_,rfl,?_,rfl⟩,rfl,Nat.zero_le _,rfl,?_,Nat.zero_le _⟩
  · intro t member
    contradiction
  · intro n row found
    simp at found
  · intro round member
    contradiction

theorem loopsGo (steady : Steady env) (buffer : BufferKind) (outInflight : Nat) (k : Kernel) (ident : Nat)
    (statics : Crc.Statics) : Ensures (runLoops env cfg buffer outInflight k ident statics) (fun r =>
      Going env cfg (outDepth cfg buffer outInflight) (books r) ∧ r.completed = cfg.frames) := by
  obtain ⟨shallow, _⟩ := Session.depthBounds cfg buffer outInflight
  unfold runLoops
  refine ensuresBind (setUpBooks buffer outInflight k ident statics) (fun r empty => ?_)
  have none_ : r.completed = 0 := congrArg Books.completed empty
  refine ensuresBind (fillGoes buffer (empty.symm ▸ emptyGoes env cfg _) none_ (Nat.le_add_left _ _)) ?_
  rintro r' ⟨going, full, none'⟩
  exact mainGoes steady buffer going shallow (by rw [full, none', Nat.zero_add]) (by omega) (by omega)

end Loops

def latencies (rows : List CsvRow) : List Int := rows.map (fun row => (row.usLatencyNs : Int))

structure Reported (cfg : Config) (depth : Nat) (r : Locals) : Prop where
  rows : r.csv.length = cfg.frames
  timed : ∀ n row, r.csv[n]? = some row → Timed r.stamps n row
  scriptMedian : ∃ q, Script.median (latencies r.csv) = some q ∧ (report cfg r).latMedianNs = ⌊q⌋₊
  scriptP95 : ∃ q, Script.percentile (Script.sorted (latencies r.csv)) (literal 95 100) = some q ∧
    (report cfg r).latP95Ns = ⌊q⌋₊
  scriptP99 : ∃ q, Script.percentile (Script.sorted (latencies r.csv)) (literal 99 100) = some q ∧
    (report cfg r).latP99Ns = ⌊q⌋₊
  median : Quantile 1 2 (r.csv.map CsvRow.usLatencyNs) (report cfg r).latMedianNs
  p95 : Quantile 95 100 (r.csv.map CsvRow.usLatencyNs) (report cfg r).latP95Ns
  p99 : Quantile 99 100 (r.csv.map CsvRow.usLatencyNs) (report cfg r).latP99Ns
  ordered : (report cfg r).latMedianNs ≤ (report cfg r).latP95Ns ∧
    (report cfg r).latP95Ns ≤ (report cfg r).latP99Ns
  occupancy : 1 ≤ (report cfg r).occMean.val ∧ (report cfg r).occMean.val ≤ (report cfg r).occMax ∧
    (report cfg r).occMax ≤ depth

section Reports

variable {cfg : Config} {depth : Nat} {r : Locals}

theorem occSumVal {rounds : List Round} {most : Nat}
    (each : ∀ round ∈ rounds, 1 ≤ round.inflight ∧ round.inflight ≤ most) (few : rounds.length * most ≤ 2^53) :
    ∃ sum : Nat, (occSum rounds).val = sum ∧ rounds.length ≤ sum ∧
      sum ≤ rounds.length * most := by
  induction rounds using List.reverseRecOn with
  | nil => exact ⟨0,natVal (Nat.zero_le _),Nat.le_refl _,Nat.zero_le _⟩
  | append_singleton rounds round ih =>
    rw [List.length_append, List.length_singleton, Nat.add_mul, Nat.one_mul] at few ⊢
    obtain ⟨sum, exact_, low, high⟩ := ih (fun other member => each other (List.mem_append_left _ member))
      (by omega)
    obtain ⟨some_, below⟩ := each round (List.mem_append_right _ (List.mem_singleton_self _))
    refine ⟨sum + round.inflight,?_,by omega,by omega⟩
    rw [occSum, List.foldl_append, List.foldl_cons, List.foldl_nil, ← occSum, Value.addVal, exact_,
      natVal (by omega), ← Nat.cast_add]
    exact nearestNat (by omega)

theorem meanWithin {sum frames most : Nat} (some_ : 0 < frames) (low : frames ≤ sum)
    (high : sum ≤ frames * most) (small : most ≤ 2^53) :
    1 ≤ nearest binary64 ((sum : ℚ) / frames) ∧ nearest binary64 ((sum : ℚ) / frames) ≤ most := by
  have positive : (0 : ℚ) < frames := Nat.cast_pos.mpr some_
  constructor
  · rw [← Nat.cast_one, ← nearestNat (n := 1) (by decide), Nat.cast_one]
    exact nearestMono binary64 ((one_le_div positive).mpr (Nat.cast_le.mpr low))
  · rw [← nearestNat small]
    refine nearestMono binary64 ((div_le_iff₀ positive).mpr ?_)
    rw [mul_comm]
    exact_mod_cast high

theorem meanReported {env : Env} (going : Going env cfg depth (books r)) (shallow : depth ≤ cfg.queueDepth)
    (done : r.completed = cfg.frames) : 1 ≤ (report cfg r).occMean.val ∧
    (report cfg r).occMean.val ≤ r.stats.occMax := by
  have range := cfg.framesRange
  have depthRange := cfg.depthRange
  have most : r.stats.occMax ≤ depth := going.most
  have count : r.rounds.length = cfg.frames := going.seen.trans done
  unfold uintMax at range
  unfold maxQueueDepth at depthRange
  have few : r.rounds.length * r.stats.occMax ≤ 2^53 :=
    (Nat.mul_le_mul (show r.rounds.length ≤ 2^32 by omega) (show r.stats.occMax ≤ 2^5 by omega)).trans
      (by decide)
  have each : ∀ round ∈ r.rounds, 1 ≤ round.inflight ∧ round.inflight ≤ r.stats.occMax := going.occupied
  obtain ⟨sum, exact_, low, high⟩ := occSumVal each few
  have mean : (report cfg r).occMean.val = nearest binary64 ((sum : ℚ) / cfg.frames) := by
    have shown : (report cfg r).occMean = occSum r.rounds / .ofNat cfg.frames := if_pos (by omega)
    rw [shown, Value.divVal, exact_, natVal (show cfg.frames ≤ 2^53 by omega)]
  rw [count] at low high
  rw [mean]
  exact meanWithin (by omega) low high (by omega)

theorem latenciesMeasured {env : Env} (going : Going env cfg depth (books r))
    (done : r.completed = cfg.frames) :
    Measured (qsort cmpU64 r.lat) ∧ (qsort cmpU64 r.lat).length = cfg.frames := by
  have range := cfg.framesRange
  unfold uintMax at range
  have lat : r.lat = r.csv.map CsvRow.usLatencyNs := going.clocked.lat
  have count : (qsort cmpU64 r.lat).length = cfg.frames := by
    rw [(qsortPerm r.lat).length_eq, lat, List.length_map]
    exact going.clocked.rows.trans done
  refine ⟨⟨qsortSorted _,?_,?_,by omega⟩,count⟩
  · intro x member
    rw [(qsortPerm r.lat).mem_iff, lat] at member
    obtain ⟨row, inside, rfl⟩ := List.mem_map.mp member
    obtain ⟨n, _, found⟩ := List.mem_iff_getElem.mp inside
    exact (going.clocked.each n row (List.getElem?_eq_some_iff.mpr ⟨_,found⟩)).small
  · rw [← List.length_pos_iff]
    omega

theorem sameLatencies {env : Env} (clocked : Clocked env cfg (books r)) :
    latencies r.csv = r.lat.map Int.ofNat := by
  have lat : r.lat = r.csv.map CsvRow.usLatencyNs := clocked.lat
  rw [lat, List.map_map]
  rfl

theorem reportedOf {env : Env} (going : Going env cfg depth (books r)) (shallow : depth ≤ cfg.queueDepth)
    (done : r.completed = cfg.frames) : Reported cfg depth r := by
  obtain ⟨measured, count⟩ := latenciesMeasured going done
  have range := cfg.framesRange
  unfold uintMax at range
  have lat : r.lat = r.csv.map CsvRow.usLatencyNs := going.clocked.lat
  have fraction (a : Nat) (proper : a ≤ 100) : Fraction (literal a 100) := literalFraction proper (by decide)
  have halfFraction : Fraction (literal 1 2) := literalFraction (by decide) (by decide)
  have cut : ∀ p, Fraction p → percentile (qsort cmpU64 r.lat) cfg.frames p = ⌊point (qsort cmpU64 r.lat) p⌋₊ :=
    fun p proper => by rw [← count, percentilePoint measured proper]
  have quantile : ∀ a b, a ≤ b → 0 < b → b < 2^20 →
      Quantile a b (r.csv.map CsvRow.usLatencyNs)
        (percentile (qsort cmpU64 r.lat) cfg.frames (literal a b)) := by
    intro a b proper some_ coarse
    have reached := percentileQuantile measured proper some_ coarse (by omega)
    rw [count] at reached
    rw [← lat]
    exact ⟨by simpa only [(qsortPerm r.lat).length_eq, (qsortPerm r.lat).countP_eq] using reached.below,
      by simpa only [(qsortPerm r.lat).length_eq, (qsortPerm r.lat).countP_eq] using reached.above⟩
  constructor
  case rows => exact going.clocked.rows.trans done
  case timed => exact going.clocked.each
  case scriptMedian =>
    refine ⟨_,?_,cut _ halfFraction⟩
    rw [sameLatencies going.clocked, Script.median, scriptSorted, medianPoint measured]
  case scriptP95 =>
    refine ⟨_,?_,cut _ (fraction 95 (by decide))⟩
    rw [sameLatencies going.clocked, scriptSorted, scriptPoint measured (fraction 95 (by decide))]
  case scriptP99 =>
    refine ⟨_,?_,cut _ (fraction 99 (by decide))⟩
    rw [sameLatencies going.clocked, scriptSorted, scriptPoint measured (fraction 99 (by decide))]
  case median => exact quantile 1 2 (by decide) (by decide) (by decide)
  case p95 => exact quantile 95 100 (by decide) (by decide) (by decide)
  case p99 => exact quantile 99 100 (by decide) (by decide) (by decide)
  case ordered =>
    simp only [report, cut _ halfFraction, cut _ (fraction 95 (by decide)), cut _ (fraction 99 (by decide))]
    exact ⟨Nat.floor_mono (pointMono measured halfFraction (fraction 95 (by decide))
      (literalMono (by norm_num))),
      Nat.floor_mono (pointMono measured (fraction 95 (by decide)) (fraction 99 (by decide))
        (literalMono (by norm_num)))⟩
  case occupancy =>
    obtain ⟨low, high⟩ := meanReported going shallow done
    exact ⟨low,high,going.most⟩

end Reports

def tickingEnv : Env := {Session.lazyEnv with clock := fun n => min (1000 * n) 1000000000}

theorem tickingSteady : Steady tickingEnv := by
  refine ⟨fun i j less => ?_,fun i => ?_,fun i => ?_⟩
  all_goals
    simp only [tickingEnv]
    omega

end Vpipe.Latency
