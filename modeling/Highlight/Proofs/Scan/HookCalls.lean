import Highlight.Proofs.Scan.EndHooks
import Highlight.Proofs.Scan.Ledger

/-!
# The calls of hooks in a run

A hook is called where the beginning of its mode has matched, or its end. The calls of a run can be
listed in their order, each with the mode that it is made for; and since a mode can be open several
times, inside itself or later on, with the time at which this one was opened.

* `Activation` -- one time that a mode is open;
* `HookCall` -- one call of a hook;
* `callsFor`, `leftBy` -- the calls for one activation, and the data that calls leave;
* `stepCalls`, `stepLive` -- the calls of a step, and the activations of the open modes after it;
* `hookCalls` -- the calls of a whole run;
* `Noted` -- that notes are those of some calls, but for what nested runs have noted.
-/

namespace Highlight.Scan

open Highlight.Arena (RuleMatch)
open Highlight.Grammar (Hook HookData HookNote HookReply MatchView Verdict)

/-! ## 1. Calls -/

/-- **One time that a mode is open.** A mode has been opened by a continuation, with so many modes
    around it; or in a round of the run, by its beginning or in the place of others that have
    closed. -/
inductive Activation where
  | continued (depth : Nat)
  | begun (round : Nat)
  | started (round : Nat)
  deriving DecidableEq

/-- The round in which a mode is opened. -/
def Activation.round : Activation → Nat
  | continued _ => 0
  | begun round => round
  | started round => round

/-- **One call of a hook**: the mode that it is made for, whether it is made at the end of the mode,
    what the hook sees, and the data that it is given. -/
structure HookCall where
  activation : Activation
  mode : Nat
  atEnd : Bool
  hook : Hook
  view : MatchView
  given : HookData

namespace HookCall

/-- What the hook answers. -/
def reply (c : HookCall) : HookReply := c.hook.call c.view c.given

/-- That the hook panics. -/
def Panics (c : HookCall) : Prop := ∃ message, c.reply.verdict = .panic message

end HookCall

/-- The calls that are made for one activation. -/
def callsFor (a : Activation) (calls : List HookCall) : List HookCall :=
  calls.filter (·.activation = a)

/-- **The data that calls for one activation leave**: those of the last one, and none before the
    first. -/
def leftBy (calls : List HookCall) : HookData :=
  (calls.getLast?.map (·.reply.data)).getD .empty

/-- What the hooks note down in some calls. -/
def notesOf (calls : List HookCall) : List HookNote := calls.flatMap (·.reply.notes)

variable {a : Activation} {calls more : List HookCall} {c : HookCall}

@[simp] theorem callsFor_append (a : Activation) (calls more : List HookCall) :
    callsFor a (calls ++ more) = callsFor a calls ++ callsFor a more := List.filter_append ..

@[simp] theorem notesOf_append (calls more : List HookCall) :
    notesOf (calls ++ more) = notesOf calls ++ notesOf more := List.flatMap_append

/-- There are no calls for an activation that none is made for. -/
theorem callsFor_of_ne (hcalls : ∀ c ∈ calls, c.activation ≠ a) : callsFor a calls = [] :=
  List.filter_eq_nil_iff.mpr fun c hc => by simpa using hcalls c hc

theorem callsFor_self (hc : c.activation = a) : callsFor a [c] = [c] := by
  rw [callsFor, List.filter_singleton, hc]
  simp

@[simp] theorem leftBy_concat (calls : List HookCall) (c : HookCall) :
    leftBy (calls ++ [c]) = c.reply.data := by
  rw [leftBy, List.getLast?_concat]
  rfl

/-! ## 2. The calls of a step -/

variable (s : Scene)

/-- The call for a beginning that has matched, if no dot turns it down and its mode has a hook. -/
def beginCall? (now id : Nat) (m : RuleMatch) : Option HookCall :=
  if (s.arena.mode id).skipAfterDot && afterDot s.text m.span.start then none
  else (s.arena.mode id).onBegin.map fun hook =>
    ⟨.begun now, id, false, hook, viewOf s m, .empty⟩

/-- The call for an open mode where an end has matched, if this is the own end of the mode too and
    there is a hook. -/
def endCall? (m : RuleMatch) (a : Activation) (f : Frame) : Option HookCall :=
  if endsAt s (s.arena.mode f.mode) m.span.start then
    (s.arena.mode f.mode).onEnd.map fun hook => ⟨a, f.mode, true, hook, viewOf s m, f.data⟩
  else none

/-- **The calls where an end has matched**: for the innermost mode, and for those around it as far as
    the end is passed on. `live` are the activations of the open modes. -/
def endCalls (m : RuleMatch) : List Activation → List Frame → List HookCall
  | [], _ => []
  | _ :: _, [] => []
  | a :: live, f :: rest =>
    (endCall? s m a f).toList ++
      match (askEnd s (s.arena.mode f.mode) m f.data).result with
      | .ok (false, _) => if (s.arena.mode f.mode).endsWithParent then endCalls m live rest else []
      | .ok (true, _) => []
      | .error _ => []

/-- The calls of a step, in the round `now`. -/
def stepCalls (now : Nat) (live : List Activation) (m : RuleMatch) (r : Run) : List HookCall :=
  if isEmptyMode m r.last then []
  else match m.kind with
    | .begins id => (beginCall? s now id m).toList
    | .ends => endCalls s m live r.frames
    | .illegal => []

/-- The activations with that of a mode that has been started. -/
def startedLive (now : Nat) (live : List Activation) : Option Nat → List Activation
  | none => live
  | some _ => .started now :: live

/-- **The activations of the modes that are open after a step**, the innermost first. -/
def stepLive (now : Nat) (live : List Activation) (m : RuleMatch) (r : Run) : List Activation :=
  if isEmptyMode m r.last then live
  else match m.kind with
    | .begins id => if opens s id m then .begun now :: live else live
    | .ends =>
      match (endOf s m r.frames).result with
      | .ok (some n, frames) => startedLive now (live.drop n) (startedBy s frames n)
      | .ok (none, _) => live
      | .error _ => live
    | .illegal => live

/-! ## 3. The calls of a run -/

/-- The calls of a round. -/
def roundCalls (now : Nat) (live : List Activation) (r : Run) : List HookCall :=
  match lookUp s r with
  | .ok (some m, first) =>
    if lacksHeadway s now m.span.start then [] else stepCalls s now live m (r.atRule first)
  | .ok (none, _) => []
  | .error _ => []

/-- The activations of the modes that are open after a round. -/
def roundLive (now : Nat) (live : List Activation) (r : Run) : List Activation :=
  match lookUp s r with
  | .ok (some m, first) => stepLive s now live m (r.atRule first)
  | .ok (none, _) => live
  | .error _ => live

/-- The calls of the rounds of a run, of which `steps` have been taken. -/
def callsFrom : Nat → Nat → List Activation → Run → List HookCall
  | 0, _, _, _ => []
  | fuel + 1, steps, live, r =>
    roundCalls s (steps + 1) live r ++
      match turn s (steps + 1) r with
      | .next _ r' => callsFrom fuel (steps + 1) (roundLive s (steps + 1) live r) r'
      | .last _ _ => []
      | .broken _ _ => []

/-- The activations of modes that a continuation has opened, the innermost first. -/
def continuedLive : Nat → List Activation
  | 0 => []
  | n + 1 => .continued n :: continuedLive n

/-- **The calls of hooks in a whole run.** -/
def hookCalls (continuation : Option (List Nat)) : List HookCall :=
  let r := initial s.arena continuation
  callsFrom s (maxSteps s) 0 (continuedLive r.frames.length) r

/-! ## 4. What is noted -/

/-- That a delegate notes nothing. -/
structure Silent (d : Delegate) : Prop where
  single : ∀ name text top x, d.single name text top = some x → x.notes = []
  best : ∀ candidates text, (d.best candidates text).notes = []

/-- **That notes are those of some calls**, with what nested runs have noted among them. -/
def Noted (calls : List HookCall) (notes : List HookNote) : Prop :=
  (notesOf calls).Sublist notes ∧ (Silent s.delegate → notes = notesOf calls)

variable {s} {α β : Type} {x : Attempt α} {f : α → Attempt β} {notes others : List HookNote}
  {m : RuleMatch} {r : Run}

theorem noted_nil : Noted s [] [] := ⟨.slnil, fun _ => rfl⟩

theorem Noted.append (h : Noted s calls notes) (h' : Noted s more others) :
    Noted s (calls ++ more) (notes ++ others) := by
  refine ⟨?_, fun hsilent => ?_⟩
  · rw [notesOf_append]
    exact h.1.append h'.1
  · rw [notesOf_append, h.2 hsilent, h'.2 hsilent]

/-- What comes after the calls of a step notes only what nested runs note. -/
theorem Noted.bind (hx : Noted s calls x.notes) (hf : ∀ a, Noted s [] (f a).notes) :
    Noted s calls (x >>= f).notes := by
  show Noted s calls (x.andThen f).notes
  unfold Attempt.andThen
  split
  · rename_i a _
    have happend := hx.append (hf a)
    rwa [List.append_nil] at happend
  · exact hx

theorem noted_tellBlock (s : Scene) (sub : Grammar.SubLanguage) (text : String) (r : Run) :
    Noted s [] (tellBlock s sub text r).notes := by
  have hnested {x : Attempt Nested} (hx : Silent s.delegate → x.notes = []) :
      Noted s [] x.notes := ⟨List.nil_sublist _, hx⟩
  unfold tellBlock
  split
  · exact noted_nil
  · cases sub with
    | single name =>
      simp only
      split
      · exact noted_nil
      · rename_i x hx
        exact (hnested fun hsilent => hsilent.single _ _ _ x hx).bind fun _ => noted_nil
    | list names => exact (hnested fun hsilent => hsilent.best _ _).bind fun _ => noted_nil
    | any => exact (hnested fun hsilent => hsilent.best _ _).bind fun _ => noted_nil

/-- Telling what is held back calls no hook. -/
theorem noted_flush (s : Scene) (r : Run) : Noted s [] (flush s r).notes := by
  unfold flush
  simp only
  split
  · exact noted_tellBlock s _ _ _
  · exact noted_nil

theorem noted_holdBegin (s : Scene) (mode : Arena.ArenaMode) (text : String) (r : Run) :
    Noted s [] (holdBegin s mode text r).notes := by
  unfold holdBegin
  split
  · exact noted_nil
  · exact (noted_flush s _).bind fun _ => noted_nil

theorem noted_holdEnd (s : Scene) (mode : Arena.ArenaMode) (m : RuleMatch) (r : Run) :
    Noted s [] (holdEnd s mode m r).notes := by
  unfold holdEnd
  simp only
  split
  · exact (noted_flush s _).bind fun _ => noted_nil
  · exact (noted_flush s _).bind fun _ => noted_nil
  · split
    · exact noted_nil
    · exact (noted_flush s _).bind fun _ => noted_nil

end Highlight.Scan
