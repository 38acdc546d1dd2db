import Vpipe.Moves

/-! What the tools of the repository share: the functions of `vpipe-common.c` that use the device, and
the calls by which a tool exchanges buffers with it. Between any two of those calls jobs may run, and
another device may write the memory it holds. -/
namespace Vpipe.Tools
open Vpipe.Lib.Word Vpipe.Lib.ByteMemory Vpipe.Lib.BufferQueue Vpipe.Lib.Transition
open Vpipe.M2m Vpipe.Moves

def vpipeNowMonotonicNs (clock : Nat → Nat) (readings : Nat) : Nat × Nat := (clock readings,readings + 1)

def succeeded : Option Errno × Sys → Option Sys
  | (none,s) => some s
  | (some _,_) => none

def vpipeSetFormat (s : Sys) (t : QType) (width height pixelformat : Nat) : Option Sys :=
  match vpipeSFmt s.c t {width := width, height := height, pixelformat := pixelformat, field := fieldNone} with
  | .ok (_,c) => some {s with c := c}
  | .error _ => none

def vpipeGetSizeimage (s : Sys) (t : QType) : Nat := (vpipeGFmt s.c t).sizeimage

def setControl (s : Sys) (id : Nat) (value : Int) : Option Sys :=
  match vidiocSCtrl s.c.controls id value with
  | .ok controls => some {s with c := {s.c with controls := controls}}
  | .error _ => none

def dmaHeapAlloc (s : Sys) (len : Nat) : Plane × Sys :=
  let m := s.k.machine
  (⟨m.next,len⟩,s.setMachine {m with next := m.next + 1, mem := m.mem.clear m.next})

def mappings (s : Sys) (t : QType) : List Plane := (s.queue t).ids.map (fun id => ((s.queue t).buf id).plane)

def vpipeRequestMmapBuffers (s : Sys) (t : QType) (count slack granted : Nat) (mapped : Bool) : Option Sys := do
  let s ← succeeded (vidiocReqbufs s t count .mmap slack granted)
  if mapped then some s else none

def queueCapture : Nat → Sys → Option Sys
  | 0, s => some s
  | n+1, s => do
    let s ← queueCapture n s
    (vidiocQbuf s .capture n 0 none).toOption

inductive Happening where
  | job (cpu : Nat)
  | draw (block : Nat) (bytes : List UInt8)

def happen (foreign : List Nat) (s : Sys) : Happening → Sys
  | .job cpu => vpipeDeviceRun s cpu
  | .draw block bytes => if block ∈ foreign then s.step (.store block bytes) else s

/- What happens at the n-th place where the tool leaves room for it, and the processor of the job
that a waiting call is woken by. -/
structure Surroundings where
  meanwhile : Nat → List Happening
  waits : Nat → Nat

/- The device, the memory that is with another device, and the places passed so far. -/
structure Client where
  s : Sys
  foreign : List Nat := []
  places : Nat := 0

inductive Stop where
  | failed | blocked
  deriving DecidableEq, Repr

structure V4l2Buffer where
  index : Nat
  bytesused : Nat
  sequence : Nat

def Client.pass (env : Surroundings) (c : Client) : Client :=
  {c with s := run (happen c.foreign) c.s (env.meanwhile c.places), places := c.places + 1}

def Client.await (env : Surroundings) (t : QType) (c : Client) : Client :=
  let c := c.pass env
  if (c.s.queue t).done = [] then {c with s := vpipeDeviceRun c.s (env.waits c.places)} else c

def Client.dqbuf (env : Surroundings) (t : QType) (c : Client) : Except Stop (V4l2Buffer × Client) :=
  let c := c.await env t
  match (c.s.queue t).done with
  | [] => .error .blocked
  | id :: _ =>
    let b := (c.s.queue t).buf id
    match vidiocDqbuf c.s t with
    | .error _ => .error .failed
    | .ok s => .ok (⟨b.index,b.data.payload,b.data.sequence⟩,{c with s := s})

def Client.qbuf (env : Surroundings) (t : QType) (index : Nat) (att : Option Attachment) (c : Client) :
    Except Stop Client :=
  let c := c.pass env
  match vidiocQbuf c.s t index 0 att with
  | .error _ => .error .failed
  | .ok s => .ok {c with s := s}

def grey (width height : Nat) : QData := ⟨width,height,width,width * height,pixFmtGrey⟩

section Format
variable {width height : Nat} (wide : 1 ≤ width ∧ width ≤ 4096) (high : 1 ≤ height ∧ height ≤ 4096)
include wide high

theorem filledGrey : qDataOf (vpipeFillPixFormat width height) = grey width height := by
  have sameWidth : clampNat width 1 4096 = width := by
    unfold clampNat
    omega
  have sameHeight : clampNat height 1 4096 = height := by
    unfold clampNat
    omega
  have small : width * height < 2^32 := by
    calc width * height ≤ 4096 * 4096 := Nat.mul_le_mul wide.2 high.2
      _ < 2^32 := by decide
  simp only [qDataOf, vpipeFillPixFormat, sameWidth, sameHeight, u32Of small, grey]

theorem formatSet {s : Sys} {t : QType} (idle : s.c.busy t = false) :
    vpipeSetFormat s t width height pixFmtGrey =
      some {s with c := {s.c with outQ := grey width height, capQ := grey width height}} := by
  unfold vpipeSetFormat
  rw [sFmtResult, idle]
  simp only [vpipeTryFmt, filledGrey wide high, Bool.false_eq_true, if_false]

end Format

end Vpipe.Tools
