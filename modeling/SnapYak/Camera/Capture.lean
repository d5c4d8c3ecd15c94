import Mathlib.Algebra.Group.Nat.Even
import SnapYak.Camera.Switching
import SnapYak.Machine.History

/-!
# Taking photos

AVFoundation calls back once for every photo that it was asked for, at any later moment and in any
order. The controller keeps one completion, that of the last call of `captureImage`, and every
callback goes to it (`Shooting.delivered_eq_last_call`).

The completion of the capture button turns the photo into a mirrored one when the front camera is
the current one at that moment, which need not be the camera that took it
(`Shooting.mirrored_iff`).

## Main definitions

* `Shooting.machine` : calls of `captureImage`, switches and callbacks in any order.
* `Shooting.delivered` : the calls of completions.
* `CameraViewController.captured` : the completion of the capture button.

## Main results

* `Shooting.delivered_eq_last_call` : which completion gets which photo.
* `Shooting.mirrored_iff` : the runs in which exactly the photos of the front camera are mirrored.
-/

open Throwing

namespace SnapYak

/-- The screen that the photo is handed to gets what the completion of `captureButtonAction` makes
of it; without a photo there is none. `scale` is that of the screen. -/
def CameraViewController.captured {κ : Type} (scale : ℕ) (c : CameraController κ)
    (image : Option UIImage) : Option UIImage :=
  image.map fun image =>
    if c.currentCameraPosition = some .front then .oriented image scale .leftMirrored else image

/-- The session is running and the photo output is set. -/
def CameraController.IsWorking {κ : Type} (c : CameraController κ) : Prop :=
  c.captureSession.map AVCaptureSession.isRunning = some true ∧ c.hasPhotoOutput = true

/-- A controller works after a preparation without an error. -/
theorem CameraController.isWorking_of_prepare {κ : Type} {c : CameraController κ}
    {lock : AVCaptureDevice → Option CameraError} {cameras : List AVCaptureDevice}
    {o : CameraController.Attachment}
    (h : result (CameraController.prepare lock cameras o) .new = (.ok (), c)) :
    c.IsWorking ∧ c.currentCameraPosition.isSome := by
  obtain ⟨position, input, hsession, hposition, -, houtput⟩ := CameraController.prepare_eq_ok h
  exact ⟨⟨by rw [hsession]; rfl, houtput⟩, by rw [hposition]; rfl⟩

theorem CameraController.IsWorking.captureImage {κ : Type} {c : CameraController κ}
    (h : c.IsWorking) (completion : κ) : CameraController.captureImage completion c =
      ({ c with photoCaptureCompletion := some completion }, true, none) := by
  simp [CameraController.captureImage, h.1, h.2]

@[simp] theorem CameraPosition.other_other (position : CameraPosition) :
    position.other.other = position := by
  cases position <;> rfl

/-- A photo that AVFoundation has been asked for and has not called back about: the completion that
came with it, the camera that was selected, and how often it has been switched since then. -/
structure Capture (κ : Type) where
  completion : κ
  camera : Option CameraPosition
  switches : ℕ

/-- A camera controller at work. -/
structure Shooting (κ : Type) where
  cameraController : CameraController κ
  captures : List (Capture κ)
  /-- The completions of all calls of `captureImage` so far. -/
  calls : List κ

namespace Shooting

variable {κ : Type}

/-- What can happen. -/
inductive Event (κ : Type)
  | captureImage (completion : κ)
  | switchCameras (o : CameraController.Attachment)
  /-- The callback for one of the photos. -/
  | photoOutput (n : ℕ) (error : Option CameraError) (image : Option UIImage)

/-- All interleavings of calls and callbacks. -/
def machine (κ : Type) : Machine (Shooting κ) (Event κ) where
  step s
    | .captureImage completion =>
      let (c, asked, _) := s.cameraController.captureImage completion
      some {
        cameraController := c
        captures := s.captures ++
          if asked then [⟨completion, s.cameraController.currentCameraPosition, 0⟩] else []
        calls := s.calls ++ [completion] }
    | .switchCameras o =>
      match result (CameraController.switchCameras o) s.cameraController with
      | (.ok _, c) => some { s with
          cameraController := c
          captures := s.captures.map fun p => { p with switches := p.switches + 1 } }
      | (.error _, c) => some { s with cameraController := c }
    | .photoOutput n _ _ => do
      let _ ← s.captures[n]?
      some { s with captures := s.captures.eraseIdx n }

/-- The calls of completions that a step makes. -/
def delivered (s : Shooting κ) : Event κ → List (Invocation κ)
  | .captureImage completion => (s.cameraController.captureImage completion).2.2.toList
  | .switchCameras _ => []
  | .photoOutput _ error image => (s.cameraController.photoOutput error image).toList

/-- The calls as they would be if every photo went to the completion of the last call of
`captureImage`. -/
def deliveredToLast (s : Shooting κ) : Event κ → List (Invocation κ)
  | .photoOutput _ error image =>
    (s.calls.getLast?.map (CameraController.processed error image)).toList
  | _ => []

/-- The calls as they would be if every photo went to the completion that came with it. -/
def deliveredToOwn (s : Shooting κ) : Event κ → List (Invocation κ)
  | .photoOutput n error image =>
    (s.captures[n]?.map fun p => CameraController.processed error image p.completion).toList
  | _ => []

/-- The photo of a callback came with the completion of the last call of `captureImage`. -/
def IsLastCall (s : Shooting κ) : Event κ → Prop
  | .photoOutput n _ _ => s.calls.getLast? = s.captures[n]?.map Capture.completion
  | _ => True

instance [DecidableEq κ] (s : Shooting κ) : (e : Event κ) → Decidable (s.IsLastCall e)
  | .photoOutput n _ _ =>
    inferInstanceAs (Decidable (s.calls.getLast? = s.captures[n]?.map Capture.completion))
  | .captureImage _ | .switchCameras _ => isTrue trivial

/-! ### The stored completion -/

/-- The controller of a running session, which stores the completion of the last call. -/
structure Working (s : Shooting κ) : Prop where
  isWorking : s.cameraController.IsWorking
  completion : ∀ k ∈ s.calls.getLast?, s.cameraController.photoCaptureCompletion = some k
  calls_ne_nil : s.captures ≠ [] → s.calls ≠ []

theorem Working.step {s t : Shooting κ} {e : Event κ} (h : s.Working)
    (ht : (machine κ).step s e = some t) : t.Working := by
  cases e with
  | captureImage completion =>
    simp only [machine, h.isWorking.captureImage, ↓reduceIte] at ht
    obtain rfl := Option.some.inj ht
    exact ⟨h.isWorking, by simp, by simp⟩
  | switchCameras o =>
    obtain ⟨hrunning, houtput, hslot⟩ := CameraController.switchCameras_keeps s.cameraController o
    have hworking : (result (CameraController.switchCameras o) s.cameraController).2.IsWorking :=
      ⟨hrunning.trans h.isWorking.1, houtput.trans h.isWorking.2⟩
    simp only [machine] at ht
    generalize result (CameraController.switchCameras o) s.cameraController = r at *
    obtain ⟨_ | _, c⟩ := r
    · obtain rfl := Option.some.inj ht
      exact ⟨hworking, fun k hk => hslot.trans (h.completion k hk), h.calls_ne_nil⟩
    · obtain rfl := Option.some.inj ht
      exact ⟨hworking, fun k hk => hslot.trans (h.completion k hk), fun hne =>
        h.calls_ne_nil fun hnil => hne (by simp [hnil])⟩
  | photoOutput n error image =>
    obtain ⟨p, hp, ht⟩ := Option.bind_eq_some_iff.mp ht
    obtain rfl := Option.some.inj ht
    exact ⟨h.isWorking, h.completion, fun _ => h.calls_ne_nil fun hnil => by simp [hnil] at hp⟩

/-- A photo that is pending has been asked for. -/
theorem Working.exists_lastCall {s : Shooting κ} (h : s.Working) {n : ℕ} {p : Capture κ}
    (hp : s.captures[n]? = some p) : ∃ k, s.calls.getLast? = some k := by
  refine Option.ne_none_iff_exists'.mp fun hnone => ?_
  exact h.calls_ne_nil (by rintro hnil; simp [hnil] at hp) (List.getLast?_eq_none_iff.mp hnone)

/-- A callback goes to the completion of the last call. -/
theorem Working.delivered_eq {s t : Shooting κ} {e : Event κ} (h : s.Working)
    (ht : (machine κ).step s e = some t) : s.delivered e = s.deliveredToLast e := by
  cases e with
  | captureImage completion =>
    simp [delivered, deliveredToLast, h.isWorking.captureImage]
  | switchCameras o => rfl
  | photoOutput n error image =>
    obtain ⟨p, hp, -⟩ := Option.bind_eq_some_iff.mp ht
    obtain ⟨k, hk⟩ := h.exists_lastCall hp
    simp [delivered, deliveredToLast, CameraController.photoOutput, hk, h.completion k hk]

/-- Each callback is one call of a completion. -/
theorem Working.length_deliveredToLast {s t : Shooting κ} {e : Event κ} (h : s.Working)
    (ht : (machine κ).step s e = some t) :
    (s.deliveredToLast e).length = (s.deliveredToOwn e).length := by
  cases e with
  | captureImage completion => rfl
  | switchCameras o => rfl
  | photoOutput n error image =>
    obtain ⟨p, hp, -⟩ := Option.bind_eq_some_iff.mp ht
    obtain ⟨k, hk⟩ := h.exists_lastCall hp
    simp [deliveredToLast, deliveredToOwn, hp, hk]

theorem working_start {c : CameraController κ} (h : c.IsWorking) : Working ⟨c, [], []⟩ :=
  ⟨h, by simp, by simp⟩

theorem processed_injective {error : Option CameraError} {image : Option UIImage} {k k' : κ}
    (h : CameraController.processed error image k = CameraController.processed error image k') :
    k = k' := by
  have := congrArg Invocation.completion h
  cases error <;> cases image <;> exact this

/-- **Who gets a photo.** Every photo is delivered once, to the completion of the last call of
`captureImage`; and every photo goes to the completion that came with it if and only if at every
callback this is the completion of the last call. -/
theorem delivered_eq_last_call {c : CameraController κ} (hc : c.IsWorking) {es : List (Event κ)}
    {t : Shooting κ} (hrun : (machine κ).run ⟨c, [], []⟩ es = some t) :
    (machine κ).log delivered ⟨c, [], []⟩ es = (machine κ).log deliveredToLast ⟨c, [], []⟩ es ∧
    ((machine κ).log delivered ⟨c, [], []⟩ es = (machine κ).log deliveredToOwn ⟨c, [], []⟩ es ↔
      (machine κ).Along IsLastCall ⟨c, [], []⟩ es) := by
  have hworking := working_start hc
  have hlast := Machine.log_congr (I := Working) (fun h ht => h.step ht)
    (fun h ht => h.delivered_eq ht) hworking hrun
  refine ⟨hlast, ?_⟩
  rw [hlast, Machine.log_eq_log_iff (I := Working) (fun h ht => h.step ht)
    (fun h ht => h.length_deliveredToLast ht) hworking hrun]
  refine Machine.along_congr (I := fun _ => True) (fun _ _ _ => trivial) (fun {s e} _ => ?_) trivial
  cases e with
  | captureImage completion => exact iff_of_true rfl trivial
  | switchCameras o => exact iff_of_true rfl trivial
  | photoOutput n error image =>
    -- What a completion is called with determines the completion.
    have hinj : Function.Injective (CameraController.processed (κ := κ) error image) :=
      fun _ _ => processed_injective
    have htoList (o o' : Option (Invocation κ)) : o.toList = o'.toList ↔ o = o' := by
      cases o <;> cases o' <;> simp
    simp only [deliveredToLast, deliveredToOwn, IsLastCall, htoList]
    rw [← (Option.map_injective hinj).eq_iff, Option.map_map]
    rfl

/-- Two photos are taken, the second one after the first has arrived. -/
theorem delivered_eq_last_call_one_at_a_time :
    let es : List (Event ℕ) := [.captureImage 0, .photoOutput 0 none (some (.decoded [7])),
      .captureImage 1, .photoOutput 0 (some .unknown) none]
    (machine ℕ).log delivered ⟨.onPhone, [], []⟩ es =
      [⟨0, some (.decoded [7]), none⟩, ⟨1, none, some .unknown⟩] := by
  intro es
  have hc : (CameraController.onPhone : CameraController ℕ).IsWorking :=
    (CameraController.isWorking_of_prepare CameraController.prepare_onPhone).1
  have hrun : (machine ℕ).run ⟨.onPhone, [], []⟩ es = some _ := rfl
  have h := (delivered_eq_last_call hc hrun).2.mpr ⟨trivial, rfl, trivial, rfl, trivial⟩
  exact h.trans rfl

/-- **A photo of another call.** Two photos are asked for before the first one arrives: both are
delivered to the second caller. -/
theorem photo_of_other_call :
    let es : List (Event ℕ) := [.captureImage 0, .captureImage 1,
      .photoOutput 0 none (some (.decoded [7])), .photoOutput 0 none (some (.decoded [8]))]
    ((machine ℕ).run ⟨.onPhone, [], []⟩ es).isSome ∧
    (machine ℕ).log delivered ⟨.onPhone, [], []⟩ es =
      [⟨1, some (.decoded [7]), none⟩, ⟨1, some (.decoded [8]), none⟩] ∧
    (machine ℕ).log deliveredToOwn ⟨.onPhone, [], []⟩ es =
      [⟨0, some (.decoded [7]), none⟩, ⟨1, some (.decoded [8]), none⟩] :=
  ⟨rfl, rfl, rfl⟩

/-! ### Mirrored photos -/

/-- What the completion of the capture button hands to the upload screen in a step. -/
def uploaded (scale : ℕ) (s : Shooting Unit) (e : Event Unit) : Option UIImage :=
  (s.delivered e).head?.bind fun i => CameraViewController.captured scale s.cameraController i.image

/-- A photo that is handed to the upload screen is mirrored if the front camera took it, and is as
it was taken otherwise. -/
def Mirrored (scale : ℕ) (s : Shooting Unit) : Event Unit → Prop
  | .photoOutput n error image => ∀ p ∈ s.captures[n]?,
    s.uploaded scale (.photoOutput n error image) =
      (CameraController.processed error image ()).image.map fun photo =>
        if p.camera = some .front then .oriented photo scale .leftMirrored else photo
  | _ => True

/-- A photo that arrives without an error was asked for an even number of switches before. -/
def SwitchedEvenly (s : Shooting Unit) : Event Unit → Prop
  | .photoOutput n none (some _) => ∀ p ∈ s.captures[n]?, Even p.switches
  | _ => True

/-- The current camera, in terms of the camera that was selected for each photo. -/
structure Selected (s : Shooting Unit) : Prop where
  working : s.Working
  position : s.cameraController.currentCameraPosition.isSome
  camera : ∀ p ∈ s.captures, s.cameraController.currentCameraPosition =
    if Even p.switches then p.camera else p.camera.map CameraPosition.other

theorem Selected.step {s t : Shooting Unit} {e : Event Unit} (h : s.Selected)
    (ht : (machine Unit).step s e = some t) : t.Selected := by
  have hworking := h.working.step ht
  cases e with
  | captureImage completion =>
    simp only [machine, h.working.isWorking.captureImage, ↓reduceIte] at ht
    obtain rfl := Option.some.inj ht
    refine ⟨hworking, h.position, fun p hp => ?_⟩
    rcases List.mem_append.mp hp with hp | hp
    · exact h.camera p hp
    · simp [List.mem_singleton.mp hp]
  | switchCameras o =>
    have hposition := CameraController.position_switchCameras s.cameraController o
    simp only [machine] at ht
    generalize result (CameraController.switchCameras o) s.cameraController = r at *
    obtain ⟨_ | _, c⟩ := r
    · obtain rfl := Option.some.inj ht
      exact ⟨hworking, hposition ▸ h.position, fun p hp => hposition.trans (h.camera p hp)⟩
    · obtain rfl := Option.some.inj ht
      have hflip : c.currentCameraPosition =
          s.cameraController.currentCameraPosition.map CameraPosition.other := hposition
      refine ⟨hworking, by simpa [hflip] using h.position, fun p hp => ?_⟩
      obtain ⟨q, hq, rfl⟩ := List.mem_map.mp hp
      simp only [hflip, h.camera q hq, Nat.even_add_one]
      by_cases heven : Even q.switches <;> simp [heven, Function.comp_def]
  | photoOutput n error image =>
    obtain ⟨p, hp, ht⟩ := Option.bind_eq_some_iff.mp ht
    obtain rfl := Option.some.inj ht
    exact ⟨hworking, h.position, fun q hq => h.camera q (List.mem_of_mem_eraseIdx hq)⟩

/-- A photo is treated as it should exactly when the camera that took it is the current one. -/
theorem Selected.mirrored_iff_switchedEvenly (scale : ℕ) {s : Shooting Unit} {e : Event Unit}
    (h : s.Selected) : s.Mirrored scale e ↔ s.SwitchedEvenly e := by
  cases e with
  | captureImage completion => exact Iff.rfl
  | switchCameras o => exact Iff.rfl
  | photoOutput n error image =>
    cases hp : s.captures[n]? with
    | none => cases error <;> cases image <;> simp [Mirrored, SwitchedEvenly, hp]
    | some p =>
      obtain ⟨k, hk⟩ := h.working.exists_lastCall hp
      have hslot := h.working.completion k hk
      have hcamera := h.camera p (List.mem_of_getElem? hp)
      cases error with
      | some error => simp [Mirrored, SwitchedEvenly, hp, uploaded, delivered, hslot,
          CameraController.photoOutput, CameraController.processed, CameraViewController.captured]
      | none =>
        cases image with
        | none => simp [Mirrored, SwitchedEvenly, hp, uploaded, delivered, hslot,
            CameraController.photoOutput, CameraController.processed, CameraViewController.captured]
        | some photo =>
          simp only [Mirrored, SwitchedEvenly, hp, Option.mem_def, Option.some.injEq,
            forall_eq', uploaded, delivered, hslot, CameraController.photoOutput, Option.map_some,
            CameraController.processed, Option.toList_some, List.head?_cons, Option.bind_some,
            CameraViewController.captured]
          by_cases heven : Even p.switches
          · simp [hcamera, heven]
          · -- The photo is taken by one camera and judged by the other.
            have hne : photo.oriented scale .leftMirrored ≠ photo := fun heq => by
              have hsize := congrArg sizeOf heq
              simp only [UIImage.oriented.sizeOf_spec] at hsize
              omega
            rw [hcamera, if_neg heven]
            cases hc : p.camera with
            | none =>
              have := h.position
              simp [hcamera, heven, hc] at this
            | some position =>
              cases position <;> simp [CameraPosition.other, heven, hne, hne.symm]

/-- **Mirroring.** Exactly the photos of the front camera are mirrored, if and only if every photo
that arrives without an error was asked for an even number of switches before. -/
theorem mirrored_iff (scale : ℕ) {c : CameraController Unit} (hc : c.IsWorking)
    (hposition : c.currentCameraPosition.isSome) (es : List (Event Unit)) :
    (machine Unit).Along (Mirrored scale) ⟨c, [], []⟩ es ↔
      (machine Unit).Along SwitchedEvenly ⟨c, [], []⟩ es := by
  have hstart : Selected ⟨c, [], []⟩ := ⟨working_start hc, hposition, by simp⟩
  exact Machine.along_congr (I := Selected) (fun h _ ht => h.step ht)
    (fun h => h.mirrored_iff_switchedEvenly scale) hstart

/-- A photo of the rear camera that arrives after the camera has been switched twice, and a photo
that fails after another switch. -/
theorem mirrored_iff_switched_twice :
    (machine Unit).Along (Mirrored 2) ⟨.onPhone, [], []⟩ [.captureImage (),
      .switchCameras ⟨.ok 1, true⟩, .switchCameras ⟨.ok 2, true⟩,
      .photoOutput 0 none (some (.decoded [7])), .captureImage (), .switchCameras ⟨.ok 3, true⟩,
      .photoOutput 0 (some .unknown) none] := by
  have hc := CameraController.isWorking_of_prepare
    (CameraController.prepare_onPhone : _ = (_, (.onPhone : CameraController Unit)))
  refine (mirrored_iff 2 hc.1 hc.2 _).mpr ⟨trivial, trivial, trivial, ?_, trivial, trivial,
    trivial, trivial⟩
  rintro _ ⟨⟩
  exact even_two

/-- **A photo judged by the wrong camera.** The rear camera takes a photo, the camera is switched
before the photo arrives, and the upload screen gets it mirrored. -/
theorem rear_photo_mirrored :
    ∃ s : Shooting Unit, (machine Unit).run ⟨.onPhone, [], []⟩
        [.captureImage (), .switchCameras ⟨.ok 1, true⟩] = some s ∧
      s.captures.map Capture.camera = [some .rear] ∧
      s.uploaded 2 (.photoOutput 0 none (some (.decoded [7]))) =
        some (.oriented (.decoded [7]) 2 .leftMirrored) :=
  ⟨_, rfl, rfl, rfl⟩

end Shooting

end SnapYak
