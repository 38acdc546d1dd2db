import Mathlib.Data.List.Basic
import Mathlib.Logic.Function.Basic

/-! Byte memory made of blocks, seen through planes of a given size. Every access is
logged with its plane and offset; nothing is refused, so that being in bounds is a
property of the log. Counted loops carry the code that walks over such memory. -/
namespace Vpipe.Lib.ByteMemory

section Loops
variable {σ : Type}

def loop : Nat → (Nat → σ → σ) → σ → σ
  | 0, _, s => s
  | n+1, body, s => body n (loop n body s)

theorem loopInvariant (inv : Nat → σ → Prop) {body : Nat → σ → σ} {s : σ} (start : inv 0 s) {n : Nat}
    (keeps : ∀ i t, i < n → inv i t → inv (i + 1) (body i t)) : inv n (loop n body s) := by
  induction n with
  | zero => exact start
  | succ n ih => exact keeps n _ (Nat.lt_succ_self n) (ih (fun i t below => keeps i t (by omega)))

theorem loopCongr {n : Nat} {body body' : Nat → σ → σ} {s : σ} (same : ∀ i t, i < n → body i t = body' i t) :
    loop n body s = loop n body' s := by
  induction n with
  | zero => rfl
  | succ n ih =>
    rw [loop, loop, ih (fun i t below => same i t (by omega)), same n _ (Nat.lt_succ_self n)]

theorem roundsSucc (p : Nat → Prop) (j : Nat) : ((∃ k, k < j ∧ p k) ∨ p j) ↔ ∃ k, k < j + 1 ∧ p k := by
  constructor
  · rintro (⟨k, low, here⟩ | here)
    · exact ⟨k,by omega,here⟩
    · exact ⟨j,by omega,here⟩
  · rintro ⟨k, low, here⟩
    rcases Nat.lt_succ_iff_lt_or_eq.mp low with lower | rfl
    · exact .inl ⟨k,lower,here⟩
    · exact .inr here

end Loops

structure Plane where
  block : Nat
  size : Nat
  deriving DecidableEq, Repr

structure Access where
  plane : Plane
  offset : Int
  deriving DecidableEq, Repr

def Access.InBounds (a : Access) : Prop := 0 ≤ a.offset ∧ a.offset < a.plane.size

instance (a : Access) : Decidable a.InBounds := inferInstanceAs (Decidable (_ ∧ _))

structure Mem where
  bytes : Nat → Int → UInt8
  log : List Access

def Mem.get (m : Mem) (p : Plane) (i : Int) : UInt8 := m.bytes p.block i

def Mem.touch (m : Mem) (p : Plane) (i : Int) : Mem := {m with log := ⟨p,i⟩ :: m.log}

def Mem.write (m : Mem) (p : Plane) (i : Int) (v : UInt8) : Mem where
  bytes b j := if b = p.block ∧ j = i then v else m.bytes b j
  log := ⟨p,i⟩ :: m.log

def Mem.clear (m : Mem) (b : Nat) : Mem := {m with bytes := Function.update m.bytes b (fun _ => 0)}

def Mem.store (m : Mem) (b : Nat) (bytes : List UInt8) : Mem :=
  let held (i : Int) := if 0 ≤ i ∧ i < bytes.length then bytes.getD i.toNat 0 else m.bytes b i
  {m with bytes := Function.update m.bytes b held}

def Mem.copy (m : Mem) (dst : Plane) (d : Int) (src : Plane) (s : Int) (n : Nat) : Mem :=
  loop n (fun k m => (m.touch src (s + k)).write dst (d + k) (m.get src (s + k))) m

def Mem.slice (m : Mem) (p : Plane) (n : Nat) : List UInt8 := (List.range n).map (fun k : Nat => m.get p k)

def Mem.scan (m : Mem) (p : Plane) (n : Nat) : Mem := loop n (fun k m => m.touch p k) m

theorem storeBytes (m : Mem) (b : Nat) (bytes : List UInt8) (i : Nat) (inside : i < bytes.length) :
    (m.store b bytes).bytes b i = bytes.getD i 0 := by
  simp [Mem.store, inside]

theorem sliceLength (m : Mem) (p : Plane) (n : Nat) : (m.slice p n).length = n := by simp [Mem.slice]

theorem sliceAt (m : Mem) (p : Plane) {n i : Nat} (inside : i < n) :
    (m.slice p n)[i]? = some (m.bytes p.block i) := by
  rw [Mem.slice, List.getElem?_map, List.getElem?_range inside]
  rfl

theorem sliceSame {m m' : Mem} {p : Plane} (same : m'.bytes p.block = m.bytes p.block) (n : Nat) :
    m'.slice p n = m.slice p n := by
  simp only [Mem.slice, Mem.get, same]

theorem scanBytes (m : Mem) (p : Plane) (n : Nat) : (m.scan p n).bytes = m.bytes :=
  loopInvariant (fun _ (t : Mem) => t.bytes = m.bytes) rfl (fun _ _ _ same => same)

def Within (ok : Access → Prop) (m m' : Mem) : Prop :=
  ∃ added, m'.log = added ++ m.log ∧ ∀ a ∈ added, ok a

section Within
variable {ok : Access → Prop} {m m' m'' : Mem}

theorem withinRefl (m : Mem) : Within ok m m := ⟨[],rfl,by simp⟩

theorem withinTrans (first : Within ok m m') (second : Within ok m' m'') : Within ok m m'' := by
  obtain ⟨xs, hx, okx⟩ := first
  obtain ⟨ys, hy, oky⟩ := second
  refine ⟨ys ++ xs,by rw [hy, hx, List.append_assoc],?_⟩
  intro a member
  rcases List.mem_append.mp member with late | early
  · exact oky a late
  · exact okx a early

theorem withinTouch (m : Mem) {p : Plane} {i : Int} (fine : ok ⟨p,i⟩) : Within ok m (m.touch p i) :=
  ⟨[⟨p,i⟩],rfl,by simpa using fine⟩

theorem withinWrite (m : Mem) {p : Plane} {i : Int} (v : UInt8) (fine : ok ⟨p,i⟩) :
    Within ok m (m.write p i v) :=
  ⟨[⟨p,i⟩],rfl,by simpa using fine⟩

theorem withinLoop {n : Nat} {body : Nat → Mem → Mem}
    (each : ∀ k t, k < n → Within ok t (body k t)) : Within ok m (loop n body m) :=
  loopInvariant (fun _ t => Within ok m t) (withinRefl m)
    (fun k t below so => withinTrans so (each k t below))

theorem withinCopy {dst src : Plane} {d s : Int} {n : Nat} (reads : ∀ k : Nat, k < n → ok ⟨src,s + k⟩)
    (writes : ∀ k : Nat, k < n → ok ⟨dst,d + k⟩) : Within ok m (m.copy dst d src s n) :=
  withinLoop (fun k t below =>
    withinTrans (withinTouch t (reads k below)) (withinWrite _ _ (writes k below)))

theorem withinScan {p : Plane} {n : Nat} (reads : ∀ k : Nat, k < n → ok ⟨p,k⟩) :
    Within ok m (m.scan p n) :=
  withinLoop (fun k t below => withinTouch t (reads k below))

end Within

structure Writes (b : Nat) (at_ : Int → Prop) (v : Int → UInt8) (m m' : Mem) : Prop where
  other : ∀ c i, c ≠ b ∨ ¬ at_ i → m'.bytes c i = m.bytes c i
  inside : ∀ i, at_ i → m'.bytes b i = v i

section Writes
variable {b : Nat} {S T : Int → Prop} {v w : Int → UInt8} {m m' m'' : Mem}

theorem writesNone (m : Mem) : Writes b (fun _ => False) v m m :=
  ⟨fun _ _ _ => rfl,fun _ no => no.elim⟩

theorem writesBlock (step : Writes b S v m m') {c : Nat} (differ : c ≠ b) : m'.bytes c = m.bytes c :=
  funext (fun i => step.other c i (.inl differ))

theorem writesThen (first : Writes b S v m m') (second : Writes b T w m' m'')
    [DecidablePred T] :
    Writes b (fun i => S i ∨ T i) (fun i => if T i then w i else v i) m m'' := by
  refine ⟨?_,?_⟩
  · intro c i outside
    rw [second.other c i (outside.imp_right (fun h t => h (.inr t))),
      first.other c i (outside.imp_right (fun h s => h (.inl s)))]
  · intro i inside
    by_cases late : T i
    · rw [if_pos late]
      exact second.inside i late
    · rw [if_neg late, second.other b i (.inr late)]
      exact first.inside i (inside.resolve_right late)

theorem writesUnion (first : Writes b S v m m') (second : Writes b T v m' m'') :
    Writes b (fun i => S i ∨ T i) v m m'' := by
  classical
  obtain ⟨other, inside⟩ := writesThen first second
  refine ⟨other,fun i here => ?_⟩
  rw [inside i here]
  split <;> rfl

theorem writesCongr (step : Writes b S v m m') (same : ∀ i, S i ↔ T i)
    (values : ∀ i, T i → v i = w i) : Writes b T w m m' :=
  ⟨fun c i outside => step.other c i (outside.imp_right (fun h s => h ((same i).mp s))),
    fun i here => (step.inside i ((same i).mpr here)).trans (values i here)⟩

theorem writesWrite (m : Mem) (p : Plane) (i : Int) (x : UInt8) :
    Writes p.block (fun j => j = i) (fun _ => x) m (m.write p i x) :=
  ⟨fun c j outside => by
      simp only [Mem.write]
      rw [if_neg (fun h => outside.elim (fun d => d h.1) (fun d => d h.2))],
    fun j here => by simp [Mem.write, here]⟩

theorem writesLoop (round : Nat → Int → Prop) {n : Nat} {body : Nat → Mem → Mem}
    (each : ∀ k t, k < n → (∀ c, c ≠ b → t.bytes c = m.bytes c) → Writes b (round k) v t (body k t)) :
    Writes b (fun i => ∃ k, k < n ∧ round k i) v m (loop n body m) := by
  refine loopInvariant (fun j t => Writes b (fun i => ∃ k, k < j ∧ round k i) v m t) ?_ ?_
  · exact writesCongr (v := v) (writesNone m) (fun i => by simp) (fun _ _ => rfl)
  · intro j t below so
    have next := writesUnion so (each j t below (fun c differ => writesBlock so differ))
    exact writesCongr next (fun i => roundsSucc (fun k => round k i) j) (fun _ _ => rfl)

theorem writesCopy {dst src : Plane} (apart : src.block ≠ dst.block) (d s : Int) (n : Nat) (m : Mem) :
    Writes dst.block (fun i => d ≤ i ∧ i < d + n) (fun i => m.bytes src.block (s + (i - d)))
      m (m.copy dst d src s n) := by
  have rounds : Writes dst.block (fun i => ∃ k : Nat, k < n ∧ i = d + k)
      (fun i => m.bytes src.block (s + (i - d))) m (m.copy dst d src s n) := by
    refine writesLoop (fun k i => i = d + k) ?_
    intro k t _ same
    have step := writesWrite (t.touch src (s + k)) dst (d + k) (t.get src (s + k))
    refine writesCongr (m := t) ⟨step.other,step.inside⟩ (fun _ => Iff.rfl) ?_
    rintro i rfl
    simp only [Mem.get]
    rw [same src.block apart]
    congr 1
    omega
  refine writesCongr rounds (fun i => ?_) (fun _ _ => rfl)
  constructor
  · rintro ⟨k, low, rfl⟩
    omega
  · rintro ⟨low, high⟩
    exact ⟨(i - d).toNat,by omega,by omega⟩

theorem copySelf {dst src : Plane} (same : src.block = dst.block) (d : Int) (n : Nat) (m : Mem) :
    (m.copy dst d src d n).bytes = m.bytes := by
  refine loopInvariant (fun _ (t : Mem) => t.bytes = m.bytes) rfl ?_
  intro k t _ kept
  funext c i
  simp only [Mem.write, Mem.touch, Mem.get, same, kept]
  split
  · rename_i here
    rw [here.1, here.2]
  · rfl

end Writes

def Fills (S : Nat → Prop) (v : Nat → UInt8) (px px' : List UInt8) : Prop :=
  ∀ i, (S i → px'[i]? = px[i]?.map (fun _ => v i)) ∧ (¬ S i → px'[i]? = px[i]?)

section Fills
variable {S T : Nat → Prop} {v : Nat → UInt8} {px px' px'' : List UInt8}

theorem fillsSet (px : List UInt8) (idx : Nat) (v : Nat → UInt8) :
    Fills (fun i => i = idx) v px (px.set idx (v idx)) := by
  intro i
  constructor
  · rintro rfl
    by_cases inside : i < px.length <;> simp [inside]
  · intro differ
    simp [Ne.symm differ]

theorem fillsLength (step : Fills S v px px') : px'.length = px.length := by
  have none_ : ∀ i : Nat, px'[i]? = none ↔ px[i]? = none := by
    intro i
    by_cases inside : S i
    · rw [(step i).1 inside, Option.map_eq_none_iff]
    · rw [(step i).2 inside]
  simp only [List.getElem?_eq_none_iff] at none_
  exact Nat.le_antisymm ((none_ _).mpr (Nat.le_refl _)) ((none_ _).mp (Nat.le_refl _))

theorem fillsUnion (first : Fills S v px px') (second : Fills T v px' px'') :
    Fills (fun i => S i ∨ T i) v px px'' := by
  intro i
  refine ⟨fun inside => ?_,fun outside => ?_⟩
  · by_cases late : T i
    · rw [(second i).1 late]
      by_cases early : S i
      · rw [(first i).1 early, Option.map_map]
        rfl
      · rw [(first i).2 early]
    · rw [(second i).2 late, (first i).1 (inside.resolve_right late)]
  · rw [(second i).2 (fun t => outside (.inr t)), (first i).2 (fun s => outside (.inl s))]

theorem fillsLoop (round : Nat → Nat → Prop) {n : Nat} {body : Nat → List UInt8 → List UInt8}
    (each : ∀ k t, k < n → Fills (round k) v t (body k t)) :
    Fills (fun i => ∃ k, k < n ∧ round k i) v px (loop n body px) := by
  refine loopInvariant (fun j t => Fills (fun i => ∃ k, k < j ∧ round k i) v px t) ?_ ?_
  · exact fun i => ⟨fun ⟨_, low, _⟩ => absurd low (Nat.not_lt_zero _),fun _ => rfl⟩
  · intro j t below so
    have next := fillsUnion so (each j t below)
    have same := fun i => roundsSucc (fun k => round k i) j
    simpa only [Fills, same] using next

end Fills

end Vpipe.Lib.ByteMemory
