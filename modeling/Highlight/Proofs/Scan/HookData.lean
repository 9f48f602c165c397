import Highlight.Proofs.Scan.HookCalls

/-!
# The data of hooks belong to one activation

What a hook keeps lies in the frame of its open mode. It is taken out while the hook is called and put
back as the hook leaves it; so a call is given what the last call for the same activation has left,
whatever other modes have been opened, turned down, asked or closed in between.

* `History` -- the calls that have been made for an open mode;
* `GivenOwn`, `Faithful` -- that a call, and every one of some calls, is given what belongs to it;
* `Faithful.verdict` -- after which calls there are others for the same activation;
* `KeepsOwn`, `AllOwn` -- that the frame of an open mode, and every one, has what belongs to it;
* `asked_endOf` -- an end, which can ask several open modes;
* `allOwn_step`, `allOwn_round` -- every step, and every round;
* `noted_scan` -- what is noted in a run;
* `hook_data_of_own_activation` -- the result, for whole runs.
-/

namespace Highlight.Scan

open Highlight.Arena (RuleMatch)
open Highlight.Grammar (Hook HookData HookNote Verdict)

variable {s : Scene} {m : RuleMatch} {r r' : Run} {steps now : Nat} {a b : Activation} {f : Frame}
  {c : HookCall} {calls more past : List HookCall} {live : List Activation} {frames : List Frame}

/-! ## 1. What belongs to a call -/

/-- **The calls that have been made for a mode since it was opened, and is open still.** The first one
    was made at its beginning, and this counted; there is none if the mode was not opened by its
    beginning, or has no hook there. All others were made at ends, which did not count. -/
inductive History (s : Scene) (a : Activation) (id : Nat) : List HookCall → Prop
  | fresh : (∀ now, a = .begun now → (s.arena.mode id).onBegin = none) → History s a id []
  | begun {now : Nat} {c : HookCall} : a = .begun now → c.atEnd = false → c.mode = id →
      c.reply.verdict = .proceed → History s a id [c]
  | asked {calls : List HookCall} {c : HookCall} : History s a id calls → c.atEnd = true →
      c.mode = id → c.reply.verdict = .ignore → History s a id (calls ++ [c])

/-- **That a call is given what belongs to it**, after some calls: the hook is that of its mode, and
    it is given what the last call for the same activation has left. At a beginning there was no such
    call; at an end there were those of an open mode. -/
structure GivenOwn (s : Scene) (past : List HookCall) (c : HookCall) : Prop where
  hook : (if c.atEnd then (s.arena.mode c.mode).onEnd else (s.arena.mode c.mode).onBegin) =
    some c.hook
  given : c.given = leftBy (callsFor c.activation past)
  begins : c.atEnd = false → callsFor c.activation past = []
  ends : c.atEnd = true → History s c.activation c.mode (callsFor c.activation past)

/-- **That every one of some calls is given what belongs to it**, and that none comes after one that
    panics. -/
def Faithful (s : Scene) (past : List HookCall) : List HookCall → Prop
  | [] => True
  | c :: calls => GivenOwn s past c ∧ (c.Panics → calls = []) ∧ Faithful s (past ++ [c]) calls

theorem Faithful.append (h : Faithful s past calls) (h' : Faithful s (past ++ calls) more)
    (hlast : (∃ c ∈ calls, c.Panics) → more = []) : Faithful s past (calls ++ more) := by
  induction calls generalizing past with
  | nil => rwa [List.append_nil] at h'
  | cons c calls ih =>
    obtain ⟨hc, hpanics, h⟩ := h
    refine ⟨hc, fun hp => ?_, ih h (by simpa using h') fun ⟨d, hd, hp⟩ =>
      hlast ⟨d, List.mem_cons_of_mem c hd, hp⟩⟩
    rw [hpanics hp, hlast ⟨c, List.mem_cons_self, hp⟩]
    rfl

theorem Faithful.split {before after : List HookCall}
    (h : Faithful s past (before ++ c :: after)) :
    GivenOwn s (past ++ before) c ∧ (c.Panics → after = []) := by
  induction before generalizing past with
  | nil =>
    rw [List.append_nil]
    exact ⟨h.1, h.2.1⟩
  | cons d before ih =>
    obtain ⟨-, -, h⟩ := h
    simpa using ih h

/-- The calls for a mode that is open still have left it open. -/
theorem History.verdict {id : Nat} (h : History s a id calls) :
    ∀ c ∈ calls, c.reply.verdict = if c.atEnd then .ignore else .proceed := by
  induction h with
  | fresh _ => exact fun c hc => by cases hc
  | begun _ hbegin _ hproceeds =>
    intro c hc
    rw [List.mem_singleton.mp hc, hbegin, hproceeds]
    rfl
  | asked _ hend _ hignores ih =>
    intro c hc
    rcases List.mem_append.mp hc with hc | hc
    · exact ih c hc
    · rw [List.mem_singleton.mp hc, hend, hignores]
      rfl

/-- **There are later calls for an activation only if a call leaves its mode open.** -/
theorem Faithful.verdict {before after : List HookCall} {d : HookCall}
    (h : Faithful s past (before ++ c :: after)) (hd : d ∈ after)
    (hsame : d.activation = c.activation) :
    c.reply.verdict = if c.atEnd then .ignore else .proceed := by
  obtain ⟨between, later, rfl⟩ := List.append_of_mem hd
  rw [show before ++ c :: (between ++ d :: later) = (before ++ c :: between) ++ d :: later by simp]
    at h
  have hgiven := h.split.1
  have hc : c ∈ callsFor d.activation (past ++ (before ++ c :: between)) :=
    List.mem_filter.mpr ⟨by simp, by simpa using hsame.symm⟩
  cases hend : d.atEnd with
  | false =>
    rw [hgiven.begins hend] at hc
    cases hc
  | true => exact (hgiven.ends hend).verdict c hc

/-! ## 2. What belongs to a frame -/

/-- **That the frame of an open mode has what belongs to it**, after some calls: what the last call for
    its activation has left. -/
structure KeepsOwn (s : Scene) (past : List HookCall) (a : Activation) (f : Frame) : Prop where
  data : f.data = leftBy (callsFor a past)
  history : History s a f.mode (callsFor a past)

/-- Calls for other activations change nothing. -/
theorem KeepsOwn.append (h : KeepsOwn s past a f) (hcalls : ∀ c ∈ calls, c.activation ≠ a) :
    KeepsOwn s (past ++ calls) a f := by
  have heq : callsFor a (past ++ calls) = callsFor a past := by
    rw [callsFor_append, callsFor_of_ne hcalls, List.append_nil]
  exact ⟨heq ▸ h.data, heq ▸ h.history⟩

theorem keepsOwn_append (h : List.Forall₂ (KeepsOwn s past) live frames)
    (hcalls : ∀ c ∈ calls, c.activation ∉ live) :
    List.Forall₂ (KeepsOwn s (past ++ calls)) live frames := by
  induction h with
  | nil => exact .nil
  | cons ha _ ih =>
    refine .cons (ha.append fun c hc heq => hcalls c hc ?_) (ih fun c hc hmem => hcalls c hc ?_)
    · exact heq ▸ List.mem_cons_self
    · exact List.mem_cons_of_mem _ hmem

/-- **That all open modes have what belongs to them**, each with an activation of its own, which no
    later round has opened. -/
structure AllOwn (s : Scene) (steps : Nat) (past : List HookCall) (live : List Activation)
    (frames : List Frame) : Prop where
  nodup : live.Nodup
  round_le : ∀ a ∈ live, a.round ≤ steps
  past_le : ∀ c ∈ past, c.activation.round ≤ steps
  frames : List.Forall₂ (KeepsOwn s past) live frames

/-! ## 3. Hooks that are asked -/

theorem notes_askHook (s : Scene) (hook : Hook) (m : RuleMatch) (data : HookData) :
    (askHook s hook m data).notes = (hook.call (viewOf s m) data).notes := by
  unfold askHook viewOf
  simp only
  split <;> rfl

/-- What a hook that is asked has answered. -/
theorem reply_of_askHook {hook : Hook} {data left : HookData} {counts : Bool}
    (h : (askHook s hook m data).result = .ok (counts, left)) :
    (hook.call (viewOf s m) data).data = left ∧
      (hook.call (viewOf s m) data).verdict = if counts then .proceed else .ignore := by
  unfold askHook at h
  unfold viewOf
  simp only at h
  split at h
  · rename_i hverdict
    cases h
    exact ⟨rfl, hverdict⟩
  · rename_i hverdict
    cases h
    exact ⟨rfl, hverdict⟩
  · cases h

/-- **A call at the end of a mode**: it is made with what the frame has. -/
structure EndCall (s : Scene) (m : RuleMatch) (a : Activation) (f : Frame) (c : HookCall) : Prop where
  activation : c.activation = a
  mode : c.mode = f.mode
  atEnd : c.atEnd = true
  hook : (s.arena.mode f.mode).onEnd = some c.hook
  given : c.given = f.data
  reply : c.reply = c.hook.call (viewOf s m) f.data
  asked : askEnd s (s.arena.mode f.mode) m f.data = askHook s c.hook m f.data

theorem endCall_of_some (h : endCall? s m a f = some c) : EndCall s m a f c := by
  unfold endCall? at h
  split at h
  · rename_i hends
    obtain ⟨hook, hhook, rfl⟩ := Option.map_eq_some_iff.mp h
    refine ⟨rfl, rfl, rfl, hhook, rfl, rfl, ?_⟩
    rw [askEnd, if_pos hends, hhook]
    rfl
  · cases h

/-- Without a call the frame stays. -/
theorem askEnd_of_none (h : endCall? s m a f = none) :
    ∃ counts, askEnd s (s.arena.mode f.mode) m f.data = pure (counts, f.data) := by
  unfold endCall? at h
  unfold askEnd
  split at h
  · rename_i hends
    rw [if_pos hends, Option.map_eq_none_iff.mp h]
    exact ⟨true, rfl⟩
  · rename_i hends
    rw [if_neg hends]
    exact ⟨false, rfl⟩

/-- A call at the end of an open mode is given what belongs to it. -/
theorem EndCall.givenOwn (hc : EndCall s m a f c) (ha : KeepsOwn s past a f) :
    GivenOwn s past c where
  hook := by rw [hc.atEnd, if_pos rfl, hc.mode, hc.hook]
  given := by rw [hc.given, hc.activation, ha.data]
  begins hfalse := by rw [hc.atEnd] at hfalse; cases hfalse
  ends _ := by rw [hc.activation, hc.mode]; exact ha.history

/-- After a call that does not count the frame has what the hook has left. -/
theorem EndCall.keepsOwn (hc : EndCall s m a f c) (ha : KeepsOwn s past a f)
    (hignores : c.reply.verdict = .ignore) :
    KeepsOwn s (past ++ [c]) a { f with data := c.reply.data } where
  data := by rw [callsFor_append, callsFor_self hc.activation, leftBy_concat]
  history := by
    rw [callsFor_append, callsFor_self hc.activation]
    exact .asked ha.history hc.atEnd hc.mode hignores

/-! ## 4. Ends -/

theorem mem_endCalls : ∀ {live : List Activation} {frames : List Frame},
    c ∈ endCalls s m live frames → c.activation ∈ live
  | [], _, hc => by cases hc
  | _ :: _, [], hc => by cases hc
  | a :: live, f :: rest, hc => by
      rcases List.mem_append.mp hc with hc | hc
      · have hown := endCall_of_some (Option.mem_toList.mp hc)
        exact hown.activation ▸ List.mem_cons_self
      · split at hc
        · split at hc
          · exact List.mem_cons_of_mem a (mem_endCalls hc)
          · cases hc
        · cases hc
        · cases hc

/-- The call for one mode, and what becomes of its frame if the end does not count for it. -/
theorem asked_endCall (ha : KeepsOwn s past a f) :
    (∀ c ∈ (endCall? s m a f).toList, c.activation = a) ∧
    Faithful s past (endCall? s m a f).toList ∧
    ∀ counts data, (askEnd s (s.arena.mode f.mode) m f.data).result = .ok (counts, data) →
      (∀ c ∈ (endCall? s m a f).toList, ¬ c.Panics) ∧
      (counts = false → KeepsOwn s (past ++ (endCall? s m a f).toList) a { f with data }) := by
  cases hcall : endCall? s m a f with
  | none =>
    obtain ⟨counts', hasked⟩ := askEnd_of_none hcall
    refine ⟨fun c hc => by (cases hc), trivial, fun counts data hres => ?_⟩
    rw [hasked] at hres
    cases hres
    refine ⟨fun c hc => by (cases hc), fun _ => ?_⟩
    rw [Option.toList_none, List.append_nil]
    exact ha
  | some c =>
    have hown := endCall_of_some hcall
    refine ⟨fun d hd => ?_, ⟨hown.givenOwn ha, fun _ => rfl, trivial⟩, fun counts data hres => ?_⟩
    · rw [List.mem_singleton.mp hd, hown.activation]
    · rw [hown.asked] at hres
      obtain ⟨hdata, hverdict⟩ := reply_of_askHook hres
      rw [← hown.reply] at hdata hverdict
      refine ⟨fun d hd ⟨message, hpanics⟩ => ?_, fun hnot => ?_⟩
      · rw [List.mem_singleton.mp hd, hverdict] at hpanics
        cases counts <;> cases hpanics
      · rw [hnot] at hverdict
        rw [← hdata]
        exact hown.keepsOwn ha hverdict

/-- An end that is passed on is asked about further out. -/
theorem endCalls_of_passed {data : HookData} {rest : List Frame}
    (hasked : (askEnd s (s.arena.mode f.mode) m f.data).result = .ok (false, data))
    (hparent : (s.arena.mode f.mode).endsWithParent = true) :
    endCalls s m (a :: live) (f :: rest) = (endCall? s m a f).toList ++ endCalls s m live rest := by
  simp only [endCalls, hasked, hparent, if_true]

/-- An end that is not passed on is asked about no further. -/
theorem endCalls_of_stopped {rest : List Frame}
    (hstops : ∀ data, (askEnd s (s.arena.mode f.mode) m f.data).result = .ok (false, data) →
      (s.arena.mode f.mode).endsWithParent = false) :
    endCalls s m (a :: live) (f :: rest) = (endCall? s m a f).toList := by
  unfold endCalls
  split
  · rename_i data hasked
    rw [if_neg (by rw [hstops data hasked]; exact Bool.false_ne_true), List.append_nil]
  · exact List.append_nil _
  · exact List.append_nil _

/-- **Where an end has matched every open mode that is asked is given what belongs to it**, and those
    that stay open have what belongs to them. -/
theorem asked_endOf : ∀ {live : List Activation} {frames : List Frame} {past : List HookCall},
    live.Nodup → List.Forall₂ (KeepsOwn s past) live frames →
    Faithful s past (endCalls s m live frames) ∧
    (endOf s m frames).Meets (fun answer => (∀ c ∈ endCalls s m live frames, ¬ c.Panics) ∧
      List.Forall₂ (KeepsOwn s (past ++ endCalls s m live frames)) (live.drop (answer.1.getD 0))
        (answer.2.drop (answer.1.getD 0))) fun _ => True
  | [], _, _, _, .nil =>
      ⟨trivial, Attempt.meets_pure ⟨fun c hc => by (cases hc), .nil⟩⟩
  | a :: live, f :: rest, past, hnodup, .cons ha hrest => by
      obtain ⟨hnew, hnodup⟩ := List.nodup_cons.mp hnodup
      obtain ⟨hmine, hfaithful, hreply⟩ := asked_endCall (m := m) ha
      have hrest := keepsOwn_append hrest fun c hc => by rw [hmine c hc]; exact hnew
      by_cases hpassed : ∃ data, (askEnd s (s.arena.mode f.mode) m f.data).result =
          .ok (false, data) ∧ (s.arena.mode f.mode).endsWithParent = true
      · -- The end goes on to the modes around this one, whose calls are not made for it.
        obtain ⟨data, hasked, hparent⟩ := hpassed
        obtain ⟨hquiet, hkeeps⟩ := hreply false data hasked
        obtain ⟨hfaithful', hinner⟩ := asked_endOf hnodup hrest
        have hothers : ∀ c ∈ endCalls s m live rest, c.activation ≠ a :=
          fun c hc heq => hnew (heq ▸ mem_endCalls hc)
        rw [endCalls_of_passed hasked hparent]
        refine ⟨hfaithful.append hfaithful' fun ⟨c, hc, hp⟩ => absurd hp (hquiet c hc), ?_⟩
        unfold endOf
        refine Attempt.meets_bind (Attempt.meets_result _) fun reply hreply => ?_
        cases hasked.symm.trans hreply
        simp only [Bool.false_eq_true, if_false, hparent, if_true]
        refine Attempt.meets_bind hinner fun answer hanswer => Attempt.meets_pure ?_
        obtain ⟨count, rest'⟩ := answer
        obtain ⟨hquiet', hrest'⟩ := hanswer
        refine ⟨List.forall_mem_append.mpr ⟨hquiet, hquiet'⟩, ?_⟩
        rw [← List.append_assoc]
        cases count with
        | none => exact .cons ((hkeeps rfl).append hothers) hrest'
        | some n => exact hrest'
      · have hstops : ∀ data, (askEnd s (s.arena.mode f.mode) m f.data).result =
            .ok (false, data) → (s.arena.mode f.mode).endsWithParent = false :=
          fun data hasked => Bool.eq_false_iff.mpr fun hparent => hpassed ⟨data, hasked, hparent⟩
        rw [endCalls_of_stopped hstops]
        refine ⟨hfaithful, ?_⟩
        unfold endOf
        refine Attempt.meets_bind (Attempt.meets_result _) fun reply hasked => ?_
        obtain ⟨counts, data⟩ := reply
        obtain ⟨hquiet, hkeeps⟩ := hreply counts data hasked
        cases counts with
        | true =>
          refine Attempt.meets_pure ⟨hquiet, ?_⟩
          obtain ⟨k, hk⟩ := pos_closingWith s.arena { f with data } rest
          simp only [Option.getD_some, hk, List.drop_succ_cons]
          exact List.forall₂_drop k hrest
        | false =>
          simp only [Bool.false_eq_true, if_false, hstops data hasked]
          exact Attempt.meets_pure ⟨hquiet, .cons (hkeeps rfl) hrest⟩

/-! ## 5. Steps -/

/-- Calls for modes that are not open, made in the next round, leave the open ones. -/
theorem AllOwn.append (hk : AllOwn s steps past live frames)
    (hcalls : ∀ c ∈ calls, c.activation.round = steps + 1) :
    AllOwn s (steps + 1) (past ++ calls) live frames where
  nodup := hk.nodup
  round_le a ha := Nat.le_succ_of_le (hk.round_le a ha)
  past_le := List.forall_mem_append.mpr
    ⟨fun c hc => Nat.le_succ_of_le (hk.past_le c hc), fun c hc => Nat.le_of_eq (hcalls c hc)⟩
  frames := keepsOwn_append hk.frames fun c hc hmem => by
    have hle := hk.round_le _ hmem
    rw [hcalls c hc] at hle
    exact Nat.not_succ_le_self steps hle

/-- For a mode that the next round opens no call has been made. -/
theorem AllOwn.callsFor_next (hk : AllOwn s steps past live frames) (ha : a.round = steps + 1) :
    callsFor a past = [] :=
  callsFor_of_ne fun c hc heq => by
    have hle := hk.past_le c hc
    rw [heq, ha] at hle
    exact Nat.not_succ_le_self steps hle

/-- **A call at the beginning of a mode**, which is given nothing. -/
structure BeginCall (s : Scene) (m : RuleMatch) (now id : Nat) (c : HookCall) : Prop where
  activation : c.activation = .begun now
  mode : c.mode = id
  atEnd : c.atEnd = false
  hook : (s.arena.mode id).onBegin = some c.hook
  given : c.given = .empty
  reply : c.reply = c.hook.call (viewOf s m) .empty

theorem beginCall_of_some {id : Nat} (h : beginCall? s now id m = some c) :
    BeginCall s m now id c := by
  unfold beginCall? at h
  split at h
  · cases h
  · obtain ⟨hook, hhook, rfl⟩ := Option.map_eq_some_iff.mp h
    exact ⟨rfl, rfl, rfl, hhook, rfl, rfl⟩

/-- A beginning that no dot turns down has a call if its mode has a hook. -/
theorem onBegin_of_none {id : Nat} (h : beginCall? s now id m = none)
    (hdot : ((s.arena.mode id).skipAfterDot && afterDot s.text m.span.start) = false) :
    (s.arena.mode id).onBegin = none := by
  unfold beginCall? at h
  rw [hdot] at h
  exact Option.map_eq_none_iff.mp h

theorem BeginCall.givenOwn {id : Nat} (hc : BeginCall s m now id c)
    (hnew : callsFor (.begun now) past = []) : GivenOwn s past c where
  hook := by rw [hc.atEnd, hc.mode, if_neg Bool.false_ne_true, hc.hook]
  given := by rw [hc.given, hc.activation, hnew]; rfl
  begins _ := by rw [hc.activation, hnew]
  ends htrue := by rw [hc.atEnd] at htrue; cases htrue

/-- A mode that its beginning opens has what the hook has left, if there is one. -/
theorem keepsOwn_of_opens {id : Nat} {data : HookData} (hopens : Opens s id m data)
    (hnew : callsFor (.begun now) past = []) :
    KeepsOwn s (past ++ (beginCall? s now id m).toList) (.begun now) ⟨id, data⟩ := by
  obtain ⟨hdot, hasked⟩ := hopens
  cases hcall : beginCall? s now id m with
  | none =>
    have hnone := onBegin_of_none hcall hdot
    rw [hnone] at hasked
    cases hasked
    rw [Option.toList_none, List.append_nil]
    refine ⟨by rw [hnew]; rfl, ?_⟩
    rw [hnew]
    exact .fresh fun _ _ => hnone
  | some c =>
    have hc := beginCall_of_some hcall
    rw [hc.hook] at hasked
    obtain ⟨hdata, hverdict⟩ := reply_of_askHook hasked
    rw [← hc.reply] at hdata hverdict
    have hcalls : callsFor (.begun now) (past ++ [c]) = [c] := by
      rw [callsFor_append, hnew, callsFor_self hc.activation, List.nil_append]
    refine ⟨?_, ?_⟩
    · rw [Option.toList_some, hcalls, ← hdata]
      rfl
    · rw [Option.toList_some, hcalls]
      exact .begun rfl hc.atEnd hc.mode hverdict

/-- A beginning whose hook panics ends the run. -/
theorem quiet_beginStep (s : Scene) (now id : Nat) (m : RuleMatch) (r : Run) :
    (beginStep s id m r).Meets (fun _ => ∀ c ∈ (beginCall? s now id m).toList, ¬ c.Panics)
      fun _ => True := by
  have hconst {α : Type} {x : Attempt α} {Q : Prop} (hQ : Q) :
      x.Meets (fun _ => Q) fun _ => True := ⟨fun _ _ => hQ, fun _ _ => trivial⟩
  unfold beginStep
  simp only
  split
  · rename_i hdot
    refine hconst fun c hc => ?_
    rw [beginCall?, if_pos hdot] at hc
    cases hc
  · refine Attempt.meets_bind (Attempt.meets_result _) fun reply hreply => hconst ?_
    intro c hc ⟨message, hpanics⟩
    have hcall := beginCall_of_some (Option.mem_toList.mp hc)
    rw [hcall.hook] at hreply
    have hverdict := (reply_of_askHook hreply).2
    rw [← hcall.reply, hpanics] at hverdict
    obtain ⟨counts, data⟩ := reply
    cases counts <;> cases hverdict

/-- **A beginning keeps what belongs to the open modes**; what is turned down leaves nothing. -/
theorem allOwn_beginStep (hk : AllOwn s steps past live r.frames) (id : Nat) :
    Faithful s past (beginCall? s (steps + 1) id m).toList ∧
    (beginStep s id m r).Meets (fun r' =>
      (∀ c ∈ (beginCall? s (steps + 1) id m).toList, ¬ c.Panics) ∧
      AllOwn s (steps + 1) (past ++ (beginCall? s (steps + 1) id m).toList)
        (if opens s id m then .begun (steps + 1) :: live else live) r'.frames) fun _ => True := by
  have hnew : callsFor (.begun (steps + 1)) past = [] := hk.callsFor_next rfl
  have hk' : AllOwn s (steps + 1) (past ++ (beginCall? s (steps + 1) id m).toList) live r.frames :=
    hk.append fun c hc => by rw [(beginCall_of_some (Option.mem_toList.mp hc)).activation]; rfl
  refine ⟨?_, Attempt.meets_and (quiet_beginStep s _ id m r)
    (Attempt.meets_mono (opened_beginStep s id m r) (fun r' hr' => ?_) fun _ _ => trivial)⟩
  · cases hcall : beginCall? s (steps + 1) id m with
    | none => trivial
    | some c => exact ⟨(beginCall_of_some hcall).givenOwn hnew, fun _ => rfl, trivial⟩
  · rcases hr' with ⟨data, hopens, hopened⟩ | ⟨hnot, rfl⟩
    · rw [if_pos ((opens_iff id).mpr ⟨data, hopens⟩), hopened.frames]
      refine ⟨List.nodup_cons.mpr ⟨fun hmem => ?_, hk'.nodup⟩,
        List.forall_mem_cons.mpr ⟨Nat.le_refl _, hk'.round_le⟩, hk'.past_le,
        .cons (keepsOwn_of_opens hopens hnew) hk'.frames⟩
      exact Nat.not_succ_le_self steps (hk.round_le _ hmem)
    · rw [if_neg fun hopens => hnot ((opens_iff id).mp hopens), frames_turnDown]
      exact hk'

/-- What is left of the open modes keeps what belongs to it, and so does a mode that is started. -/
theorem AllOwn.ends {n : Nat} {asked : List Frame} (hk : AllOwn s steps past live frames)
    (hcalls : ∀ c ∈ calls, c.activation ∈ live)
    (hasked : List.Forall₂ (KeepsOwn s (past ++ calls)) (live.drop n) (asked.drop n))
    (next : Option Nat) :
    AllOwn s (steps + 1) (past ++ calls) (startedLive (steps + 1) (live.drop n) next)
      (startedIn (asked.drop n) next) := by
  have hle : ∀ a ∈ live.drop n, a.round ≤ steps := fun a ha =>
    hk.round_le a (List.mem_of_mem_drop ha)
  have hpast : ∀ c ∈ past ++ calls, c.activation.round ≤ steps :=
    List.forall_mem_append.mpr ⟨hk.past_le, fun c hc => hk.round_le _ (hcalls c hc)⟩
  have hnodup : (live.drop n).Nodup := hk.nodup.sublist (List.drop_sublist n live)
  have hrest : AllOwn s (steps + 1) (past ++ calls) (live.drop n) (asked.drop n) :=
    ⟨hnodup, fun a ha => Nat.le_succ_of_le (hle a ha), fun c hc => Nat.le_succ_of_le (hpast c hc),
      hasked⟩
  cases next with
  | none => exact hrest
  | some next =>
    have hnew : callsFor (.started (steps + 1)) (past ++ calls) = [] :=
      callsFor_of_ne fun c hc heq => by
        have hround := hpast c hc
        rw [heq] at hround
        exact Nat.not_succ_le_self steps hround
    refine ⟨List.nodup_cons.mpr ⟨fun hmem => ?_, hnodup⟩,
      List.forall_mem_cons.mpr ⟨Nat.le_refl _, hrest.round_le⟩, hrest.past_le, .cons ?_ hasked⟩
    · exact Nat.not_succ_le_self steps (hle _ hmem)
    · refine ⟨by rw [hnew]; rfl, ?_⟩
      rw [hnew]
      exact .fresh fun _ h => by cases h

/-- **An end keeps what belongs to the open modes.** -/
theorem allOwn_endStep (hk : AllOwn s steps past live r.frames) :
    Faithful s past (endCalls s m live r.frames) ∧
    (endStep s m r).Meets (fun r' => (∀ c ∈ endCalls s m live r.frames, ¬ c.Panics) ∧
      ∃ live', AllOwn s (steps + 1) (past ++ endCalls s m live r.frames) live' r'.frames ∧
        live' = match (endOf s m r.frames).result with
          | .ok (some n, frames) => startedLive (steps + 1) (live.drop n) (startedBy s frames n)
          | .ok (none, _) => live
          | .error _ => live) fun _ => True := by
  obtain ⟨hfaithful, hasked⟩ := asked_endOf (m := m) hk.nodup hk.frames
  have hcalls : ∀ c ∈ endCalls s m live r.frames, c.activation ∈ live := fun c hc => mem_endCalls hc
  refine ⟨hfaithful, Attempt.meets_mono (closed_endStep s m r) (fun r' hr' => ?_) fun _ _ => trivial⟩
  rcases hr' with ⟨n, frames, hanswer, hclosed⟩ | ⟨frames, hanswer, rfl⟩
  · obtain ⟨hquiet, hleft⟩ := hasked.1 _ hanswer
    refine ⟨hquiet, _, ?_, by rw [hanswer]⟩
    rw [hclosed.frames]
    exact hk.ends hcalls hleft _
  · obtain ⟨hquiet, hleft⟩ := hasked.1 _ hanswer
    refine ⟨hquiet, _, ?_, by rw [hanswer]⟩
    exact hk.ends (n := 0) hcalls hleft none

/-- **Every step keeps what belongs to the open modes**, and every call in it is given what belongs to
    it. -/
theorem allOwn_step (hk : AllOwn s steps past live r.frames) :
    Faithful s past (stepCalls s (steps + 1) live m r) ∧
    (step s m r).Meets (fun r' => (∀ c ∈ stepCalls s (steps + 1) live m r, ¬ c.Panics) ∧
      AllOwn s (steps + 1) (past ++ stepCalls s (steps + 1) live m r)
        (stepLive s (steps + 1) live m r) r'.frames) fun _ => True := by
  have hidle : AllOwn s (steps + 1) (past ++ []) live r.frames := hk.append fun c hc => by cases hc
  unfold stepCalls stepLive
  cases hempty : isEmptyMode m r.last with
  | true =>
    rw [step_of_empty hempty]
    refine ⟨trivial, ?_⟩
    split
    · exact Attempt.meets_pure ⟨fun c hc => by (cases hc), hidle⟩
    · exact Attempt.meets_fail trivial
  | false =>
    rw [step_of_not_empty hempty, act]
    simp only [Bool.false_eq_true, if_false]
    cases m.kind with
    | begins id => exact allOwn_beginStep (r := r.meet s m) hk id
    | ends =>
      obtain ⟨hfaithful, hmeets⟩ := allOwn_endStep (m := m) (r := r.meet s m) hk
      refine ⟨hfaithful, Attempt.meets_mono hmeets ?_ fun _ _ => trivial⟩
      rintro r' ⟨hquiet, live', hk', rfl⟩
      exact ⟨hquiet, hk'⟩
    | illegal =>
      refine ⟨trivial, ?_⟩
      simp only
      split
      · refine Attempt.meets_pure ⟨fun c hc => by (cases hc), ?_⟩
        rw [frames_passIllegal]
        exact hidle
      · exact Attempt.meets_fail trivial

/-! ## 6. Rounds -/

/-- The calls of a round that has handled a match, and the open modes after it. -/
theorem round_of_lookUp (live : List Activation) {first : Nat} (hl : lookUp s r = .ok (some m, first))
    (hheadway : lacksHeadway s now m.span.start = false) :
    roundCalls s now live r = stepCalls s now live m (r.atRule first) ∧
      roundLive s now live r = stepLive s now live m (r.atRule first) := by
  unfold roundCalls roundLive
  rw [hl]
  simp [hheadway]

/-- **Every round keeps what belongs to the open modes.** -/
theorem allOwn_round (hk : AllOwn s steps past live r.frames) :
    Faithful s past (roundCalls s (steps + 1) live r) ∧
    ∀ notes r', turn s (steps + 1) r = .next notes r' →
      (∀ c ∈ roundCalls s (steps + 1) live r, ¬ c.Panics) ∧
      AllOwn s (steps + 1) (past ++ roundCalls s (steps + 1) live r)
        (roundLive s (steps + 1) live r) r'.frames := by
  constructor
  · unfold roundCalls
    split
    · rename_i m first _
      split
      · trivial
      · exact (allOwn_step (r := r.atRule first) hk).1
    · trivial
    · trivial
  · intro notes r' hturn
    obtain ⟨m, first, hl, hstep, hheadway, -⟩ := turn_next hturn
    obtain ⟨hcalls, hlive⟩ := round_of_lookUp live hl hheadway
    rw [hcalls, hlive]
    exact (allOwn_step (r := r.atRule first) hk).2.1 r' (by rw [hstep])

/-- **All calls of a run are given what belongs to them**, if the open modes have what belongs to
    them. -/
theorem faithful_callsFrom (fuel : Nat) (hk : AllOwn s steps past live r.frames) :
    Faithful s past (callsFrom s fuel steps live r) := by
  induction fuel generalizing steps past live r with
  | zero => trivial
  | succ fuel ih =>
    obtain ⟨hfaithful, hnext⟩ := allOwn_round hk
    unfold callsFrom
    cases hturn : turn s (steps + 1) r with
    | next notes r' =>
      obtain ⟨hquiet, hk'⟩ := hnext notes r' hturn
      exact hfaithful.append (ih hk') fun ⟨c, hc, hp⟩ => absurd hp (hquiet c hc)
    | last notes r' => rwa [List.append_nil]
    | broken notes f => rwa [List.append_nil]

theorem mem_continuedLive : ∀ {n : Nat}, a ∈ continuedLive n → ∃ k < n, a = .continued k
  | n + 1, ha => by
      rcases List.mem_cons.mp ha with rfl | ha
      · exact ⟨n, Nat.lt_succ_self n, rfl⟩
      · obtain ⟨k, hk, heq⟩ := mem_continuedLive ha
        exact ⟨k, Nat.lt_succ_of_lt hk, heq⟩

theorem nodup_continuedLive : ∀ n : Nat, (continuedLive n).Nodup
  | 0 => List.nodup_nil
  | n + 1 => List.nodup_cons.mpr ⟨fun hmem => by
      obtain ⟨k, hk, heq⟩ := mem_continuedLive hmem
      cases heq
      exact Nat.lt_irrefl n hk, nodup_continuedLive n⟩

/-- Modes that a continuation has opened have nothing. -/
theorem allOwn_initial (s : Scene) (continuation : Option (List Nat)) :
    AllOwn s 0 [] (continuedLive (initial s.arena continuation).frames.length)
      (initial s.arena continuation).frames := by
  have hround : ∀ {n : Nat} {a : Activation}, a ∈ continuedLive n → a.round ≤ 0 := fun ha => by
    obtain ⟨k, -, rfl⟩ := mem_continuedLive ha
    exact Nat.le_refl 0
  refine ⟨nodup_continuedLive _, fun a ha => hround ha, fun c hc => by (cases hc), ?_⟩
  have hempty : ∀ f ∈ (initial s.arena continuation).frames, f.data = .empty := by
    intro f hf
    rw [frames_initial, framesOf] at hf
    obtain ⟨id, -, rfl⟩ := List.mem_map.mp hf
    rfl
  generalize (initial s.arena continuation).frames = frames at hempty
  induction frames with
  | nil => exact .nil
  | cons f frames ih =>
    obtain ⟨hf, hempty⟩ := List.forall_mem_cons.mp hempty
    exact .cons ⟨hf, .fresh fun _ h => by cases h⟩ (ih hempty)

/-! ## 7. Notes -/

theorem notes_endCall (s : Scene) (m : RuleMatch) (a : Activation) (f : Frame) :
    (askEnd s (s.arena.mode f.mode) m f.data).notes = notesOf (endCall? s m a f).toList := by
  cases hcall : endCall? s m a f with
  | none =>
    obtain ⟨counts, hasked⟩ := askEnd_of_none hcall
    rw [hasked]
    rfl
  | some c =>
    have hown := endCall_of_some hcall
    rw [hown.asked, notes_askHook, ← hown.reply]
    exact (List.flatMap_singleton ..).symm

/-- Where an end has matched nothing is noted but by the hooks that are called. -/
theorem notes_endCalls : ∀ {live : List Activation} {frames : List Frame},
    live.length = frames.length → (endOf s m frames).notes = notesOf (endCalls s m live frames)
  | [], [], _ => rfl
  | a :: live, f :: rest, hlength => by
      have hown := notes_endCall s m a f
      unfold endOf
      cases hasked : (askEnd s (s.arena.mode f.mode) m f.data).result with
      | error e =>
        rw [Attempt.notes_bind_of_error hasked, hown, endCalls_of_stopped fun data h => by
          cases hasked.symm.trans h]
      | ok reply =>
        obtain ⟨counts, data⟩ := reply
        rw [Attempt.notes_bind_of_ok hasked, hown]
        cases counts with
        | true =>
          rw [endCalls_of_stopped fun data h => by cases hasked.symm.trans h]
          exact List.append_nil _
        | false =>
          simp only [Bool.false_eq_true, if_false]
          cases hparent : (s.arena.mode f.mode).endsWithParent with
          | false =>
            rw [endCalls_of_stopped fun _ _ => hparent]
            exact List.append_nil _
          | true =>
            rw [endCalls_of_passed hasked hparent, notesOf_append,
              ← notes_endCalls (Nat.succ.inj hlength), if_pos rfl]
            cases hrest : (endOf s m rest).result with
            | error e => rw [Attempt.notes_bind_of_error hrest]
            | ok answer =>
              rw [Attempt.notes_bind_of_ok hrest]
              exact congrArg _ (List.append_nil _)

theorem noted_beginStep (s : Scene) (now id : Nat) (m : RuleMatch) (r : Run) :
    Noted s (beginCall? s now id m).toList (beginStep s id m r).notes := by
  unfold beginStep
  simp only
  split
  · rename_i hdot
    rw [beginCall?, if_pos hdot]
    exact noted_nil
  · rename_i hdot
    have hasked : (askHook? s (s.arena.mode id).onBegin m .empty).notes =
        notesOf (beginCall? s now id m).toList := by
      rw [beginCall?, if_neg hdot]
      cases (s.arena.mode id).onBegin with
      | none => rfl
      | some hook => exact (notes_askHook s hook m .empty).trans (List.flatMap_singleton ..).symm
    refine Noted.bind ⟨hasked ▸ .refl _, fun _ => hasked⟩ fun (counts, data) => ?_
    cases counts with
    | false => exact noted_nil
    | true => exact (noted_holdBegin s _ _ r).bind fun _ => noted_nil

theorem noted_endStep (hlength : live.length = r.frames.length) :
    Noted s (endCalls s m live r.frames) (endStep s m r).notes := by
  have hasked := notes_endCalls (s := s) (m := m) hlength
  refine Noted.bind ⟨hasked ▸ .refl _, fun _ => hasked⟩ fun (count, frames) => ?_
  cases count with
  | none => exact noted_nil
  | some n => exact (noted_holdEnd s _ m _).bind fun _ => noted_nil

/-- **In a step nothing is noted but by the hooks that are called**, and by nested runs. -/
theorem noted_step (now : Nat) (hlength : live.length = r.frames.length) :
    Noted s (stepCalls s now live m r) (step s m r).notes := by
  unfold stepCalls
  cases hempty : isEmptyMode m r.last with
  | true =>
    rw [step_of_empty hempty]
    simp only [if_true]
    split <;> exact noted_nil
  | false =>
    rw [step_of_not_empty hempty, act]
    simp only [Bool.false_eq_true, if_false]
    cases m.kind with
    | begins id => exact noted_beginStep s now id m _
    | ends => exact noted_endStep (r := r.meet s m) hlength
    | illegal =>
      simp only
      split <;> exact noted_nil

/-- What is noted in a round. -/
def Turn.notes : Turn → List HookNote
  | .next notes _ => notes
  | .last notes _ => notes
  | .broken notes _ => notes

theorem noted_turn (now : Nat) (hlength : live.length = r.frames.length) :
    Noted s (roundCalls s now live r) (turn s now r).notes := by
  unfold roundCalls turn lookUp
  split
  · rename_i m first hl
    rw [hl]
    simp only
    split
    · exact noted_nil
    · have hnoted := noted_step (s := s) (m := m) (r := r.atRule first) now hlength
      rw [show step s m { r with resumes := false, firstRule := first } = step s m (r.atRule first)
        from rfl]
      cases hstep : step s m (r.atRule first) with
      | mk notes result =>
        rw [hstep] at hnoted
        cases result with
        | error f => exact hnoted
        | ok r' =>
          simp only
          split <;> exact hnoted
  · rename_i hl
    rw [hl]
    exact noted_nil
  · rename_i hl
    rw [hl]
    exact noted_nil

theorem noted_complete (s : Scene) (notes : List HookNote) (r : Run) :
    ∃ more, (complete s notes r).notes = notes ++ more ∧ Noted s [] more := by
  unfold complete
  have hnoted := noted_flush s (r.hold (s.text.slice r.index s.text.size))
  simp only
  split
  · rename_i more r' hflush
    rw [hflush] at hnoted
    exact ⟨more, rfl, hnoted⟩
  · rename_i more f hflush
    rw [hflush] at hnoted
    exact ⟨more, rfl, hnoted⟩

/-- **In a run nothing is noted but by the hooks that are called**, and by nested runs. -/
theorem noted_scan (fuel : Nat) (notes : List HookNote) (hk : AllOwn s steps past live r.frames) :
    ∃ more, (scan s fuel steps notes r).notes = notes.reverse ++ more ∧
      Noted s (callsFrom s fuel steps live r) more := by
  induction fuel generalizing steps past live r notes with
  | zero => exact ⟨[], (List.append_nil _).symm, noted_nil⟩
  | succ fuel ih =>
    have hturn' := noted_turn (s := s) (steps + 1) hk.frames.length_eq
    obtain ⟨-, hnext⟩ := allOwn_round hk
    unfold scan callsFrom
    cases hturn : turn s (steps + 1) r with
    | next others r' =>
      rw [hturn] at hturn'
      obtain ⟨more, heq, hmore⟩ := ih (others.reverse ++ notes) (hnext others r' hturn).2
      refine ⟨others ++ more, ?_, hturn'.append hmore⟩
      simp only [heq, List.reverse_append, List.reverse_reverse, List.append_assoc]
    | last others r' =>
      rw [hturn] at hturn'
      obtain ⟨more, heq, hmore⟩ := noted_complete s (notes.reverse ++ others) r'
      exact ⟨others ++ more, by simp only [heq, List.append_assoc], hturn'.append hmore⟩
    | broken others f =>
      rw [hturn] at hturn'
      refine ⟨others, rfl, ?_⟩
      rw [List.append_nil]
      exact hturn'

/-! ## 8. The result -/

/-- **The data of hooks belong to one activation.** The calls of a run are those whose notes are the
    notes of the run, but for those of nested runs. Every call is given what the last call for the same
    activation has left, and nothing if there is none: at a beginning there never is; at an end the
    first one may have been made at the beginning, which counted, and all others at ends, which did
    not. After a hook that panics there are no further calls. -/
theorem hook_data_of_own_activation (s : Scene) (continuation : Option (List Nat)) :
    Noted s (hookCalls s continuation) (scanAll s continuation).notes ∧
    ∀ before c after, hookCalls s continuation = before ++ c :: after →
      GivenOwn s before c ∧ (c.Panics → after = []) ∧
        ((∃ d ∈ after, d.activation = c.activation) →
          c.reply.verdict = if c.atEnd then .ignore else .proceed) := by
  have hstart := allOwn_initial s continuation
  constructor
  · obtain ⟨more, heq, hmore⟩ := noted_scan (maxSteps s) [] hstart
    unfold scanAll
    rw [heq]
    exact hmore
  · intro before c after heq
    have hfaithful := faithful_callsFrom (maxSteps s) hstart
    rw [show callsFrom s (maxSteps s) 0 _ _ = before ++ c :: after from heq] at hfaithful
    obtain ⟨hgiven, hpanics⟩ := hfaithful.split
    exact ⟨hgiven, hpanics, fun ⟨d, hd, hsame⟩ => hfaithful.verdict hd hsame⟩

/-- Texts that end with the word that they begin with, inside one another. -/
def nestedHeredocs : Grammar.Language where
  mode := { contains := some [.mode ⟨[("heredoc", 0)], Grammar.Fragment.endSameAsBegin {
    beginPattern := some (.single "<<(\\w+)")
    endPattern := some (.single "(\\w+)")
    contains := some [.self] }⟩] }

/-- Each of two such texts keeps its own word, the inner one also where the word of the outer one is
    met in it. -/
theorem nested_heredocs_keep_their_words : ∃ arena,
    Arena.compileLanguage "l" nestedHeredocs = .ok arena ∧
    ((hookCalls (aloneIn arena "<<a<<b a b a") none).map fun c =>
      (c.activation, c.atEnd, c.given.get? Grammar.Fragment.beginKey)) =
      [(.begun 1, false, none), (.begun 2, false, none), (.begun 2, true, some "b"),
        (.begun 2, true, some "b"), (.begun 1, true, some "a")] ∧
    ∀ before c after, hookCalls (aloneIn arena "<<a<<b a b a") none = before ++ c :: after →
      GivenOwn (aloneIn arena "<<a<<b a b a") before c := by
  have hcheck : (Arena.compileLanguage "l" nestedHeredocs).toOption.any (fun arena =>
      ((hookCalls (aloneIn arena "<<a<<b a b a") none).map fun c =>
        (c.activation, c.atEnd, c.given.get? Grammar.Fragment.beginKey)) ==
      [(.begun 1, false, none), (.begun 2, false, none), (.begun 2, true, some "b"),
        (.begun 2, true, some "b"), (.begun 1, true, some "a")]) = true := by decide +kernel
  obtain ⟨arena, hc, hcheck⟩ := exists_of_any hcheck
  exact ⟨arena, hc, beq_iff_eq.mp hcheck, fun before c after heq =>
    ((hook_data_of_own_activation (aloneIn arena "<<a<<b a b a") none).2 before c after heq).1⟩

end Highlight.Scan
