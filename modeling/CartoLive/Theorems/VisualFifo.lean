import CartoLive.Web.VisualScheduler
import Mathlib.Data.List.Induction

/-!
# The live visual scheduler is a lossless queue

Whatever the callbacks answer, the visuals that were settled and the queue are together the
enqueued visuals in their order; a frame makes at most eight calls of `start`; and a frame is
requested exactly while the queue is not empty.
-/

namespace CartoLive.Theorems.VisualFifo

open CartoLive.Web LiveVisualScheduler

variable {T : Type} (options : SchedulerOptions T)

/-! ## One round of each loop -/

theorem passed_push (s : LiveVisualScheduler T) (visual : T) :
    (s.push options visual).passed = s.passed ++ [visual] := by
  have hadd : ∀ s' : LiveVisualScheduler T,
      passed { s' with queue := s'.queue ++ [visual] } = s'.passed ++ [visual] := fun s' => by
    simp [passed, settled]
  unfold push
  dsimp only
  rw [hadd]
  split
  · split
    · rfl
    · rename_i oldest rest hqueue
      rw [passed_putBack]
      simp [passed, settled, hqueue]
  · rfl

theorem queue_push_ne_nil (s : LiveVisualScheduler T) (visual : T) :
    (s.push options visual).queue ≠ [] := by
  unfold push
  simp

@[simp] theorem frameHandle_push (s : LiveVisualScheduler T) (visual : T) :
    (s.push options visual).frameHandle = s.frameHandle := by
  unfold push
  dsimp only
  split
  · split
    · rfl
    · rw [frameHandle_putBack]
  · rfl

@[simp] theorem frames_push (s : LiveVisualScheduler T) (visual : T) :
    (s.push options visual).frames = s.frames := by
  unfold push
  dsimp only
  split
  · split
    · rfl
    · rw [frames_putBack]
  · rfl

/-- What the loop of a frame keeps. -/
structure FrameKeeps (before after : LiveVisualScheduler T) (starts : Nat) : Prop where
  passed : after.passed = before.passed
  calls : after.calls.length ≤ before.calls.length + starts
  frameHandle : after.frameHandle = before.frameHandle
  frames : after.frames = before.frames

theorem frameKeeps_startUpTo (starts : Nat) (s : LiveVisualScheduler T) :
    FrameKeeps s (startUpTo options starts s) starts := by
  induction starts generalizing s with
  | zero => exact ⟨rfl, Nat.le_refl _, rfl, rfl⟩
  | succ starts ih =>
    rw [startUpTo]
    split
    · exact ⟨rfl, Nat.le_add_right _ _, rfl, rfl⟩
    · rename_i visual rest hqueue
      -- the state after the try has the visual settled, or at the head again
      have htry : ∀ pressure, FrameKeeps s
          (putBack visual ((({ s with queue := rest }).pressure options).1.startVisual options
            visual pressure)) 1 := by
        intro pressure
        refine ⟨?_, ?_, ?_, ?_⟩
        · rw [passed_putBack]
          simp [LiveVisualScheduler.passed, settled, LiveVisualScheduler.pressure, hqueue]
        · rw [calls_putBack]
          simp [LiveVisualScheduler.pressure]
        · rw [frameHandle_putBack]
          rfl
        · rw [frames_putBack]
          rfl
      dsimp only
      split
      · obtain ⟨hpassed, hcalls, hhandle, hframes⟩ := htry _
        exact ⟨hpassed, by omega, hhandle, hframes⟩
      · obtain ⟨hpassed, hcalls, hhandle, hframes⟩ := htry (LiveVisualScheduler.pressure options
          { s with queue := rest }).2
        have hrest := ih (putBack visual ((({ s with queue := rest }).pressure options).1.startVisual
          options visual (({ s with queue := rest }).pressure options).2))
        refine ⟨hrest.passed.trans hpassed, ?_, hrest.frameHandle.trans hhandle,
          hrest.frames.trans hframes⟩
        have hlater := hrest.calls
        omega

/-! ## The calls -/

theorem passed_enqueue (s : LiveVisualScheduler T) (visuals : List T) :
    (s.enqueue options visuals).passed = s.passed ++ visuals := by
  unfold enqueue
  rw [passed_schedule]
  induction visuals generalizing s with
  | nil => simp
  | cons visual visuals ih =>
    rw [List.foldl_cons, ih, passed_push, List.append_assoc]
    rfl

theorem drainFrame_eq (s : LiveVisualScheduler T) :
    ∃ after, FrameKeeps { s with frameHandle := 0 } after liveVisualMaxStartsPerFrame ∧
      s.drainFrame options = after.schedule options := by
  unfold drainFrame
  dsimp only
  split
  · rename_i hempty
    refine ⟨{ s with frameHandle := 0 }, ⟨rfl, Nat.le_add_right _ _, rfl, rfl⟩, ?_⟩
    unfold schedule
    rw [if_pos (Or.inr hempty)]
  · obtain ⟨hpassed, hcalls, hhandle, hframes⟩ := frameKeeps_startUpTo options
      (min s.queue.length liveVisualMaxStartsPerFrame) { s with frameHandle := 0 }
    exact ⟨_, ⟨hpassed, by omega, hhandle, hframes⟩, rfl⟩

theorem passed_drainFrame (s : LiveVisualScheduler T) :
    (s.drainFrame options).passed = s.passed := by
  obtain ⟨after, hkeeps, heq⟩ := drainFrame_eq options s
  rw [heq, passed_schedule, hkeeps.passed]
  rfl

theorem calls_drainFrame_le (s : LiveVisualScheduler T) :
    (s.drainFrame options).calls.length ≤ s.calls.length + liveVisualMaxStartsPerFrame := by
  obtain ⟨after, hkeeps, heq⟩ := drainFrame_eq options s
  rw [heq, calls_schedule]
  exact hkeeps.calls

/-! ## Frames -/

/-- A frame is requested while the queue is not empty. -/
def Armed (s : LiveVisualScheduler T) : Prop := s.frameHandle ≠ 0 ↔ s.queue ≠ []

/-- There is one requested frame for a handle. -/
def OneFrame (s : LiveVisualScheduler T) : Prop := s.frames = if s.frameHandle = 0 then 0 else 1

/-- Without a handle, or with a queue to be drained, scheduling arms the scheduler. -/
theorem armed_schedule {s : LiveVisualScheduler T} (h : s.queue = [] → s.frameHandle = 0) :
    Armed (s.schedule options) := by
  unfold Armed schedule
  by_cases hhandle : s.frameHandle = 0
  · by_cases hqueue : s.queue = []
    · rw [if_pos (Or.inr hqueue)]
      simp [hhandle, hqueue]
    · rw [if_neg (by simp [hhandle, hqueue])]
      simp [hqueue, options.handle_ne_zero]
  · rw [if_pos (Or.inl hhandle)]
    exact iff_of_true hhandle fun hqueue => hhandle (h hqueue)

theorem oneFrame_schedule {s : LiveVisualScheduler T} (h : OneFrame s) :
    OneFrame (s.schedule options) := by
  unfold OneFrame schedule at *
  split
  · exact h
  · rename_i hidle
    have hhandle : s.frameHandle = 0 := not_not.mp fun hne => hidle (Or.inl hne)
    rw [if_neg (options.handle_ne_zero _)]
    rw [if_pos hhandle] at h
    dsimp only
    omega

theorem foldl_push (visuals : List T) (s : LiveVisualScheduler T) :
    (visuals.foldl (push options) s).frameHandle = s.frameHandle ∧
      (visuals.foldl (push options) s).frames = s.frames ∧
      ((visuals.foldl (push options) s).queue = [] → s.queue = []) := by
  induction visuals generalizing s with
  | nil => exact ⟨rfl, rfl, id⟩
  | cons visual visuals ih =>
    obtain ⟨hhandle, hframes, hqueue⟩ := ih (s.push options visual)
    rw [List.foldl_cons]
    exact ⟨hhandle.trans (frameHandle_push options s visual),
      hframes.trans (frames_push options s visual),
      fun hempty => absurd (hqueue hempty) (queue_push_ne_nil options s visual)⟩

theorem armed_enqueue {s : LiveVisualScheduler T} (h : Armed s) (visuals : List T) :
    Armed (s.enqueue options visuals) := by
  obtain ⟨hhandle, -, hqueue⟩ := foldl_push options visuals s
  refine armed_schedule options fun hempty => ?_
  rw [hhandle]
  exact not_not.mp fun hne => h.mp hne (hqueue hempty)

theorem oneFrame_enqueue {s : LiveVisualScheduler T} (h : OneFrame s) (visuals : List T) :
    OneFrame (s.enqueue options visuals) := by
  obtain ⟨hhandle, hframes, -⟩ := foldl_push options visuals s
  refine oneFrame_schedule options ?_
  unfold OneFrame
  rw [hhandle, hframes]
  exact h

theorem armed_drainFrame (s : LiveVisualScheduler T) : Armed (s.drainFrame options) := by
  obtain ⟨after, hkeeps, heq⟩ := drainFrame_eq options s
  rw [heq]
  exact armed_schedule options fun _ => hkeeps.frameHandle

/-- A frame that was requested runs. -/
theorem oneFrame_frame {s : LiveVisualScheduler T} (h : OneFrame s) :
    OneFrame (({ s with frames := s.frames - 1 }).drainFrame options) := by
  obtain ⟨after, hkeeps, heq⟩ := drainFrame_eq options { s with frames := s.frames - 1 }
  have hhandle : after.frameHandle = 0 := hkeeps.frameHandle
  have hone : after.frames = s.frames - 1 := hkeeps.frames
  rw [heq]
  refine oneFrame_schedule options ?_
  unfold OneFrame at *
  rw [if_pos hhandle, hone]
  split at h <;> omega

/-! ## Runs -/

/-- The visuals that the calls enqueued, in their order. -/
def enqueued (calls : List (SchedulerCall T)) : List T :=
  calls.flatMap fun
    | .enqueue visuals => visuals
    | .drainFrame => []
    | .frame => []

theorem passed_call (s : LiveVisualScheduler T) (call : SchedulerCall T) :
    (s.call options call).passed = s.passed ++ enqueued [call] := by
  cases call with
  | enqueue visuals => simp [LiveVisualScheduler.call, passed_enqueue, enqueued]
  | drainFrame => simp [LiveVisualScheduler.call, passed_drainFrame, enqueued]
  | frame =>
    have hdrained : (({ s with frames := s.frames - 1 }).drainFrame options).passed = s.passed :=
      passed_drainFrame options _
    rw [call_frame]
    split
    · simp [enqueued]
    · rw [hdrained]
      simp [enqueued]

theorem passed_run (calls : List (SchedulerCall T)) :
    (run options calls).passed = enqueued calls := by
  induction calls using List.reverseRecOn with
  | nil => rfl
  | append_singleton calls call ih =>
    unfold run at *
    rw [List.foldl_append, List.foldl_cons, List.foldl_nil, passed_call, ih]
    simp [enqueued]

theorem armed_call {s : LiveVisualScheduler T} (h : Armed s) (call : SchedulerCall T) :
    Armed (s.call options call) := by
  cases call with
  | enqueue visuals => exact armed_enqueue options h visuals
  | drainFrame => exact armed_drainFrame options s
  | frame =>
    rw [call_frame]
    split
    · exact h
    · exact armed_drainFrame options _

theorem armed_run (calls : List (SchedulerCall T)) : Armed (run options calls) := by
  induction calls using List.reverseRecOn with
  | nil => exact iff_of_false (by simp [run, new]) (by simp [run, new])
  | append_singleton calls call ih =>
    unfold run at *
    rw [List.foldl_append, List.foldl_cons, List.foldl_nil]
    exact armed_call options ih call

/-- Where frames alone drain the queue, each handle has its one frame. -/
theorem oneFrame_run {calls : List (SchedulerCall T)} (h : ∀ call ∈ calls, call ≠ .drainFrame) :
    OneFrame (run options calls) := by
  induction calls using List.reverseRecOn with
  | nil => rfl
  | append_singleton calls call ih =>
    have hbefore := ih fun earlier hmem => h earlier (List.mem_append_left _ hmem)
    have hcall := h call (by simp)
    unfold run at *
    rw [List.foldl_append, List.foldl_cons, List.foldl_nil]
    cases call with
    | enqueue visuals => exact oneFrame_enqueue options hbefore visuals
    | drainFrame => exact absurd rfl hcall
    | frame =>
      rw [call_frame]
      split
      · exact hbefore
      · exact oneFrame_frame options hbefore

/-! ## The result -/

/-- After any calls: the settled visuals and the queue are the enqueued visuals, in order; the
started ones are among them, each once; a further frame starts at most eight; a handle is held,
and where frames alone drain the queue one frame is requested, exactly while the queue is not
empty. -/
theorem lossless_fifo (calls : List (SchedulerCall T)) :
    (run options calls).settled ++ (run options calls).queue = enqueued calls ∧
      (run options calls).started.Sublist (enqueued calls) ∧
      ((run options calls).drainFrame options).calls.length ≤
        (run options calls).calls.length + liveVisualMaxStartsPerFrame ∧
      ((run options calls).frameHandle ≠ 0 ↔ (run options calls).queue ≠ []) ∧
      ((∀ call ∈ calls, call ≠ .drainFrame) →
        (run options calls).frames = if (run options calls).queue = [] then 0 else 1) := by
  have hpassed := passed_run options calls
  have harmed := armed_run options calls
  refine ⟨hpassed, ?_, calls_drainFrame_le options _, harmed, fun hframed => ?_⟩
  · rw [← hpassed]
    exact (started_sublist_settled _).trans (List.sublist_append_left _ _)
  · have hone := oneFrame_run options hframed
    unfold OneFrame at hone
    rw [hone]
    by_cases hqueue : (run options calls).queue = []
    · rw [if_pos hqueue, if_pos (not_not.mp fun hne => harmed.mp hne hqueue)]
    · rw [if_neg hqueue, if_neg (harmed.mpr hqueue)]

/-- Callbacks that refuse the first start and take all others. -/
def refuseFirst : SchedulerOptions Nat where
  start call _ _ := if call = 0 then .retry else .started
  activeCount _ := 0
  requestFrame call := call + 1
  now _ := 0
  handle_ne_zero call := Nat.succ_ne_zero call

theorem lossless_fifo_after_a_retry :
    (run refuseFirst [.enqueue [1, 2, 3], .frame, .frame]).frames =
      if (run refuseFirst [.enqueue [1, 2, 3], .frame, .frame]).queue = [] then 0 else 1 :=
  (lossless_fifo refuseFirst [.enqueue [1, 2, 3], .frame, .frame]).2.2.2.2 (by simp)

end CartoLive.Theorems.VisualFifo
