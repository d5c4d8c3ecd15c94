import SnapYak.Camera.Capture
import SnapYak.Machine.Routine
import SnapYak.Machine.Simulation

/-!
# Starting the camera

The camera screen prepares its controller on a queue of its own (`CameraController.prepare`), while
the capture button and the switch button can be tapped on the main queue. Nothing disables them in
the meantime, and the taps read what the preparation writes.

They are refused because the session does not run before the last statement of the preparation. The
statements of the two queues interleave here; what a processor may do with accesses that are not
ordered is left out. So is the focus, for which a touch locks the rear camera.

## Main definitions

* `Startup.prepare` : the preparation, one statement at a time.
* `CameraController.displayPreview` : what the completion handler of the preparation does.
* `Startup.machine` : the interleavings of the preparation with taps.

## Main results

* `Startup.runs_prepare` : run alone, the statements are `CameraController.prepare`.
* `Startup.keeps_prepare` : the session runs when the preparation has ended, and not before.
* `Startup.taps_refused` : taps during the preparation.
* `Startup.hasPreview_iff` : when there is a preview.
-/

open Throwing

namespace SnapYak

namespace CameraController

variable {κ : Type} {c : CameraController κ}

/-- The session is there and running. -/
def IsRunning (c : CameraController κ) : Prop :=
  c.captureSession.map AVCaptureSession.isRunning = some true

instance (c : CameraController κ) : Decidable c.IsRunning := inferInstanceAs (Decidable (_ = _))

/-- `displayPreview(on:)`. Without an error, the preview layer is in the view. -/
def displayPreview (c : CameraController κ) : Except CameraError Unit :=
  if (c.captureSession.map AVCaptureSession.isRunning).getD false then .ok ()
  else .error .captureSessionIsMissing

theorem getD_isRunning_iff (c : CameraController κ) :
    (c.captureSession.map AVCaptureSession.isRunning).getD false = true ↔ c.IsRunning := by
  unfold IsRunning
  cases c.captureSession <;> simp

theorem displayPreview_isOk_iff (c : CameraController κ) :
    c.displayPreview.isOk = true ↔ c.IsRunning := by
  simp only [displayPreview, getD_isRunning_iff]
  by_cases hrunning : c.IsRunning <;> simp [hrunning, Except.isOk, Except.toBool]

/-- A call before the session runs is refused. -/
theorem captureImage_of_not_isRunning (h : ¬c.IsRunning) (completion : κ) :
    c.captureImage completion =
      (c, false, some ⟨completion, none, some .captureSessionIsMissing⟩) := by
  rw [captureImage, if_neg (mt c.getD_isRunning_iff.mp h)]

theorem switchCameras_of_not_isRunning (h : ¬c.IsRunning) (o : Attachment) :
    result (switchCameras o) c = (.error .captureSessionIsMissing, c) := by
  cases hsession : c.captureSession with
  | none => simp [switchCameras, hsession]
  | some session =>
    have hidle : session.isRunning = false := by simpa [IsRunning, hsession] using h
    cases hposition : c.currentCameraPosition <;>
      simp [switchCameras, hsession, hposition, hidle]

theorem isRunning_captureImage (completion : κ) :
    (c.captureImage completion).1.IsRunning ↔ c.IsRunning := by
  rw [captureImage]
  split_ifs <;> exact Iff.rfl

theorem isRunning_switchCameras (o : Attachment) :
    (result (switchCameras o) c).2.IsRunning ↔ c.IsRunning := by
  rw [IsRunning, (switchCameras_keeps c o).1, IsRunning]

end CameraController

namespace Startup

open CameraController

variable {κ : Type}

/-! ### The preparation, one statement at a time -/

/-- A method of the controller in the background. -/
abbrev Preparation (κ α : Type) := Routine CameraError (CameraController κ) α

/-- A method of the session of the controller. -/
def modifySession (f : AVCaptureSession → AVCaptureSession) : Preparation κ Unit :=
  .change fun c => { c with captureSession := c.captureSession.map f }

/-- `AVCaptureDeviceInput(device:)`. -/
def createInput (o : Attachment) (device : AVCaptureDevice) :
    Preparation κ AVCaptureDeviceInput :=
  match o.creation with
  | .ok identity => pure ⟨identity, device⟩
  | .error e => .threw e

/-- `createCaptureSession()`. -/
def createCaptureSession : Preparation κ Unit :=
  .change fun c => { c with captureSession := some .new }

/-- The loop of `configureCaptureDevices()`. -/
def configureCameras (lockForConfiguration : AVCaptureDevice → Option CameraError) :
    List AVCaptureDevice → Preparation κ Unit
  | [] => pure ()
  | camera :: cameras => do
    match camera.position with
    | .front => .change fun c => { c with frontCamera := some camera }
    | .back => do
      .change fun c => { c with rearCamera := some camera }
      match lockForConfiguration camera with
      | some e => .threw e
      | none => pure ()
    | .unspecified => pure ()
    configureCameras lockForConfiguration cameras

/-- `configureCaptureDevices()`. -/
def configureCaptureDevices (lockForConfiguration : AVCaptureDevice → Option CameraError)
    (cameras : List AVCaptureDevice) : Preparation κ Unit := do
  if cameras.isEmpty then .threw .noCamerasAvailable
  configureCameras lockForConfiguration cameras

/-- `configureDeviceInputs()`. -/
def configureDeviceInputs (o : Attachment) : Preparation κ Unit := do
  if (← .read).captureSession.isNone then .threw .captureSessionIsMissing
  match (← .read).rearCamera, (← .read).frontCamera with
  | some rearCamera, _ => do
    let input ← createInput o rearCamera
    .change (·.setCameraInput .rear input)
    if o.canAddInput then modifySession (·.addInput input)
    .change fun c => { c with currentCameraPosition := some .rear }
  | none, some frontCamera => do
    let input ← createInput o frontCamera
    .change (·.setCameraInput .front input)
    if o.canAddInput then modifySession (·.addInput input) else .threw .inputsAreInvalid
    .change fun c => { c with currentCameraPosition := some .front }
  | none, none => .threw .noCamerasAvailable

/-- `configurePhotoOutput()`. -/
def configurePhotoOutput : Preparation κ Unit := do
  if (← .read).captureSession.isNone then .threw .captureSessionIsMissing
  .change fun c => { c with hasPhotoOutput := true }
  modifySession .startRunning

/-- `prepare(completionHandler:)`. -/
def prepare (lockForConfiguration : AVCaptureDevice → Option CameraError)
    (cameras : List AVCaptureDevice) (o : Attachment) : Preparation κ Unit := do
  createCaptureSession
  configureCaptureDevices lockForConfiguration cameras
  configureDeviceInputs o
  configurePhotoOutput

/-! ### Alone -/

theorem runs_configureCameras (lock : AVCaptureDevice → Option CameraError) :
    (cameras : List AVCaptureDevice) →
      (configureCameras lock cameras : Preparation κ Unit).Runs
        (CameraController.configureCameras lock cameras)
  | [] => .pure ()
  | camera :: cameras => by
    have hrest := runs_configureCameras lock cameras
    rw [configureCameras, CameraController.configureCameras]
    cases camera.position with
    | unspecified => exact .bind (.pure ()) fun _ => hrest
    | front => exact .bind (.change _) fun _ => hrest
    | back =>
      refine .bind (.change _) fun _ => ?_
      cases lock camera with
      | some e => exact .bind (.throw e) fun _ => hrest
      | none => exact .bind (.pure ()) fun _ => hrest

theorem runs_configureCaptureDevices (lock : AVCaptureDevice → Option CameraError)
    (cameras : List AVCaptureDevice) :
    (configureCaptureDevices lock cameras : Preparation κ Unit).Runs
      (CameraController.configureCaptureDevices lock cameras) := by
  exact .when (.throw _) fun _ => runs_configureCameras lock cameras

theorem runs_modifySession (f : AVCaptureSession → AVCaptureSession) :
    (modifySession f : Preparation κ Unit).Runs (CameraController.modifySession f) :=
  .change _

theorem runs_createInput (o : Attachment) (device : AVCaptureDevice) :
    (createInput o device : Preparation κ _).Runs (CameraController.createInput o device) := by
  rw [createInput, CameraController.createInput]
  cases o.creation with
  | ok identity => exact .pure _
  | error e => exact .throw e

theorem runs_configureDeviceInputs (o : Attachment) :
    (configureDeviceInputs o : Preparation κ Unit).Runs
      (CameraController.configureDeviceInputs o) := by
  refine .bind .read fun c => .when (.throw _) fun _ => ?_
  refine .bind .read fun c₁ => .bind .read fun c₂ => ?_
  cases c₁.rearCamera with
  | some rearCamera =>
    refine .bind (runs_createInput o rearCamera) fun input => .bind (.change _) fun _ => ?_
    exact .when (runs_modifySession _) fun _ => .change _
  | none =>
    cases c₂.frontCamera with
    | some frontCamera =>
      refine .bind (runs_createInput o frontCamera) fun input => .bind (.change _) fun _ => ?_
      exact .ite (.bind (runs_modifySession _) fun _ => .change _)
        (.bind (.throw _) fun _ => .change _)
    | none => exact .throw _

theorem runs_configurePhotoOutput :
    (configurePhotoOutput : Preparation κ Unit).Runs CameraController.configurePhotoOutput := by
  refine .bind .read fun c => .when (.throw _) fun _ => ?_
  exact .bind (.change _) fun _ => runs_modifySession _

/-- **Run alone, the statements are the method.** -/
theorem runs_prepare (lock : AVCaptureDevice → Option CameraError)
    (cameras : List AVCaptureDevice) (o : Attachment) :
    (prepare lock cameras o : Preparation κ Unit).Runs
      (CameraController.prepare lock cameras o) := by
  refine .bind (.change _) fun _ => .bind (runs_configureCaptureDevices lock cameras) fun _ => ?_
  exact .bind (runs_configureDeviceInputs o) fun _ => runs_configurePhotoOutput

/-! ### When the session runs -/

/-- A statement that leaves the session alone. -/
theorem preserves_change {f : CameraController κ → CameraController κ}
    (hf : ∀ c, (f c).captureSession = c.captureSession) :
    (Routine.change f : Preparation κ Unit).Preserves fun c => ¬c.IsRunning := by
  refine .change fun c hc => ?_
  simpa only [IsRunning, hf] using hc

theorem preserves_addInput (input : AVCaptureDeviceInput) :
    (modifySession (·.addInput input) : Preparation κ Unit).Preserves fun c => ¬c.IsRunning := by
  refine .change fun c hc => ?_
  have hsame : (c.captureSession.map (·.addInput input)).map AVCaptureSession.isRunning =
      c.captureSession.map AVCaptureSession.isRunning := by
    rw [Option.map_map]
    rfl
  simpa only [IsRunning, hsame] using hc

theorem preserves_configureCameras (lock : AVCaptureDevice → Option CameraError) :
    (cameras : List AVCaptureDevice) →
      (configureCameras lock cameras : Preparation κ Unit).Preserves fun c => ¬c.IsRunning
  | [] => .pure ()
  | camera :: cameras => by
    have hrest := preserves_configureCameras lock cameras
    rw [configureCameras]
    cases camera.position with
    | unspecified => exact .bind (.pure ()) fun _ => hrest
    | front => exact .bind (preserves_change fun _ => rfl) fun _ => hrest
    | back =>
      refine .bind (preserves_change fun _ => rfl) fun _ => ?_
      cases lock camera with
      | some e => exact .bind (.threw e) fun _ => hrest
      | none => exact .bind (.pure ()) fun _ => hrest

theorem preserves_createInput (o : Attachment) (device : AVCaptureDevice) :
    (createInput o device : Preparation κ _).Preserves fun c => ¬c.IsRunning := by
  rw [createInput]
  cases o.creation with
  | ok identity => exact .pure _
  | error e => exact .threw e

theorem preserves_setCameraInput (position : CameraPosition) (input : AVCaptureDeviceInput) :
    (Routine.change (·.setCameraInput position input) : Preparation κ Unit).Preserves
      fun c => ¬c.IsRunning :=
  preserves_change fun c => c.captureSession_setCameraInput position input

theorem preserves_configureDeviceInputs (o : Attachment) :
    (configureDeviceInputs o : Preparation κ Unit).Preserves fun c => ¬c.IsRunning := by
  refine .bind .read fun c => .when (.threw _) fun _ => ?_
  refine .bind .read fun c₁ => .bind .read fun c₂ => ?_
  cases c₁.rearCamera with
  | some rearCamera =>
    refine .bind (preserves_createInput o rearCamera) fun input => ?_
    refine .bind (preserves_setCameraInput .rear input) fun _ => ?_
    exact .when (preserves_addInput input) fun _ => preserves_change fun _ => rfl
  | none =>
    cases c₂.frontCamera with
    | some frontCamera =>
      refine .bind (preserves_createInput o frontCamera) fun input => ?_
      refine .bind (preserves_setCameraInput .front input) fun _ => ?_
      exact .ite (.bind (preserves_addInput input) fun _ => preserves_change fun _ => rfl)
        (.bind (.threw _) fun _ => preserves_change fun _ => rfl)
    | none => exact .threw _

/-- The session is started by the last statement. -/
theorem keeps_configurePhotoOutput {c : CameraController κ} (h : ¬c.IsRunning) :
    (configurePhotoOutput : Preparation κ Unit).Keeps (fun c => ¬c.IsRunning)
      (fun _ c => c.IsRunning) c := by
  refine Routine.keeps_bind.mpr ⟨h, ?_⟩
  change Routine.Keeps (fun c => ¬c.IsRunning) (fun _ c => c.IsRunning)
    (if c.captureSession.isNone = true then _ else _) c
  split_ifs with hnone
  · exact h
  · obtain ⟨session, hsession⟩ :=
      Option.ne_none_iff_exists'.mp (mt Option.isNone_iff_eq_none.mpr hnone)
    have hrunning : ({ c with
        hasPhotoOutput := true
        captureSession := c.captureSession.map .startRunning } : CameraController κ).IsRunning := by
      rw [IsRunning, hsession]
      rfl
    exact ⟨h, h, hrunning⟩

/-- **The session runs when the preparation has ended, and not before.** -/
theorem keeps_prepare (lock : AVCaptureDevice → Option CameraError) (cameras : List AVCaptureDevice)
    (o : Attachment) : (prepare lock cameras o : Preparation κ Unit).Keeps
      (fun c => ¬c.IsRunning) (fun _ c => c.IsRunning) .new := by
  refine Routine.keeps_bind.mpr ⟨by simp [IsRunning, new], ?_⟩
  refine Routine.Keeps.bind (m := configureCaptureDevices lock cameras) ?_ fun _ c₁ h₁ => ?_
  · refine Routine.Preserves.when (.threw _) (fun _ => preserves_configureCameras lock cameras) _ ?_
    simp [IsRunning, AVCaptureSession.new]
  · refine Routine.Keeps.bind (preserves_configureDeviceInputs o c₁ h₁) fun _ c₂ h₂ => ?_
    exact keeps_configurePhotoOutput h₂

/-! ### Taps in the meantime -/

/-- A tap on one of the buttons. -/
inductive Tap (κ : Type)
  | captureImage (completion : κ)
  | switchCameras (o : Attachment)

/-- What a tap does to the controller. -/
def tap (c : CameraController κ) : Tap κ → CameraController κ
  | .captureImage completion => (c.captureImage completion).1
  | .switchCameras o => (result (CameraController.switchCameras o) c).2

theorem unnoticed_tap : Background.Unnoticed (tap (κ := κ)) (fun c => ¬c.IsRunning)
    fun c => c.IsRunning where
  running c a h := by
    cases a with
    | captureImage completion => rw [tap, captureImage_of_not_isRunning h]
    | switchCameras o => rw [tap, switchCameras_of_not_isRunning h]
  ended c a h := by
    cases a with
    | captureImage completion => exact (isRunning_captureImage completion).mpr h
    | switchCameras o => exact (isRunning_switchCameras o).mpr h

end Startup

/-- The camera screen when it starts. -/
structure Startup (κ : Type) where
  cameraController : CameraController κ
  /-- What is left of the preparation. -/
  preparation : Startup.Preparation κ Unit
  /-- Whether the completion handler of the preparation has been called. -/
  isHandled : Bool
  /-- Whether the preview layer is in the view. -/
  hasPreview : Bool

namespace Startup

open CameraController

variable {κ : Type}

/-- `viewDidLoad()`. -/
def start (lockForConfiguration : AVCaptureDevice → Option CameraError)
    (cameras : List AVCaptureDevice) (o : Attachment) : Startup κ where
  cameraController := .new
  preparation := prepare lockForConfiguration cameras o
  isHandled := false
  hasPreview := false

/-- What can happen. -/
inductive Event (κ : Type)
  /-- The next statement of the preparation. -/
  | statement
  /-- The completion handler, on the main queue. An error is printed, and either way the preview is
  tried. -/
  | completionHandler
  | tap (a : Tap κ)

/-- All interleavings. -/
def machine (κ : Type) : Machine (Startup κ) (Event κ) where
  step s
    | .statement =>
      match s.preparation with
      | .next f k => some { s with
          cameraController := f s.cameraController
          preparation := k s.cameraController }
      | .ended _ | .threw _ => none
    | .completionHandler =>
      if s.preparation.isOver && !s.isHandled then some { s with
        isHandled := true
        hasPreview := s.cameraController.displayPreview.isOk }
      else none
    | .tap a => some { s with cameraController := tap s.cameraController a }

/-- What a tap is answered with: whether AVFoundation has been asked for a photo, and the call of
the completion that is made at once; or how the switch ended. -/
inductive Answer (κ : Type)
  | captureImage (asked : Bool) (call : Option (Invocation κ))
  | switchCameras (r : Except CameraError Unit)

/-- The answers to the taps. -/
def answered (s : Startup κ) : Event κ → List (Answer κ)
  | .tap (.captureImage completion) =>
    [.captureImage (s.cameraController.captureImage completion).2.1
      (s.cameraController.captureImage completion).2.2]
  | .tap (.switchCameras o) =>
    [.switchCameras (result (CameraController.switchCameras o) s.cameraController).1]
  | .statement | .completionHandler => []

/-- The answers that refuse the taps. -/
def refused (_ : Startup κ) : Event κ → List (Answer κ)
  | .tap (.captureImage completion) =>
    [.captureImage false (some ⟨completion, none, some .captureSessionIsMissing⟩)]
  | .tap (.switchCameras _) => [.switchCameras (.error .captureSessionIsMissing)]
  | .statement | .completionHandler => []

variable {s t : Startup κ} {e : Event κ} {es : List (Event κ)}

theorem answered_eq_refused (h : ∀ a, e = .tap a → ¬s.cameraController.IsRunning) :
    s.answered e = s.refused e := by
  match e with
  | .statement | .completionHandler => rfl
  | .tap (.captureImage completion) =>
    simp only [answered, refused, captureImage_of_not_isRunning (h _ rfl)]
  | .tap (.switchCameras o) =>
    simp only [answered, refused, switchCameras_of_not_isRunning (h _ rfl)]

/-- The preparation in the background of the taps. -/
def background : Machine.Simulation (machine κ)
    (Background.machine (ε := CameraError) (tap (κ := κ))) where
  inv _ := True
  map s := ⟨s.cameraController, s.preparation⟩
  label _ e := match e with
    | .statement => some .statement
    | .completionHandler => none
    | .tap a => some (.call a)
  inv_step _ _ := trivial
  run_step {s e t} _ ht := by
    cases e with
    | statement =>
      obtain ⟨cameraController, preparation, isHandled, hasPreview⟩ := s
      cases preparation with
      | next f k =>
        obtain rfl := Option.some.inj ht
        rfl
      | ended a => exact absurd ht (by simp [machine])
      | threw e => exact absurd ht (by simp [machine])
    | completionHandler =>
      simp only [machine] at ht
      split_ifs at ht
      obtain rfl := Option.some.inj ht
      rfl
    | tap a =>
      obtain rfl := Option.some.inj ht
      rfl

variable {lock : AVCaptureDevice → Option CameraError} {cameras : List AVCaptureDevice}
  {o : Attachment}

theorem kept_start (lock : AVCaptureDevice → Option CameraError) (cameras : List AVCaptureDevice)
    (o : Attachment) : (background.map (start lock cameras o)).Kept
      (fun c : CameraController κ => ¬c.IsRunning) fun c => c.IsRunning :=
  keeps_prepare lock cameras o

/-- The part of a run in which the session does not run. -/
theorem exists_prefix (hrun : (machine κ).run (start lock cameras o) es = some t) :
    ∃ es₁ es₂ u, es = es₁ ++ es₂ ∧ (machine κ).run (start lock cameras o) es₁ = some u ∧
      (machine κ).Along (fun s e => ∀ a, e = .tap a → ¬s.cameraController.IsRunning)
        (start lock cameras o) es₁ ∧
      u.preparation.result u.cameraController =
        result (CameraController.prepare lock cameras o) .new ∧
      (es₂ = [] ∨ u.preparation = .ended ()) := by
  obtain ⟨es₁, es₂, u, hes, hu, halong, hresult, hend⟩ :=
    Background.exists_prefix background unnoticed_tap trivial (kept_start lock cameras o) hrun
  refine ⟨es₁, es₂, u, hes, hu, halong.mono fun s e hA a ha => ?_,
    hresult.trans (runs_prepare lock cameras o .new), hend.imp_left And.left⟩
  exact hA a (by rw [ha]; rfl)

/-- **Taps during the preparation.** Whatever is tapped while the preparation runs, every tap is
refused and changes nothing, and the preparation leaves what it leaves alone: a run begins with a
part in which all taps are refused, and at the end of which what is left of the preparation does
what `prepare` does to a new controller. Something follows only if the preparation has ended without
an error by then. -/
theorem taps_refused (hrun : (machine κ).run (start lock cameras o) es = some t) :
    ∃ es₁ es₂ u, es = es₁ ++ es₂ ∧ (machine κ).run (start lock cameras o) es₁ = some u ∧
      (machine κ).log answered (start lock cameras o) es₁ =
        (machine κ).log refused (start lock cameras o) es₁ ∧
      u.preparation.result u.cameraController =
        result (CameraController.prepare lock cameras o) .new ∧
      (es₂ = [] ∨ u.preparation = .ended ()) := by
  obtain ⟨es₁, es₂, u, hes, hu, halong, hresult, hend⟩ := exists_prefix hrun
  refine ⟨es₁, es₂, u, hes, hu, ?_, hresult, hend⟩
  exact Machine.log_congr_of_along (I := fun _ => True) (fun _ _ _ => trivial)
    (fun _ hA _ => answered_eq_refused hA) trivial halong hu

/-- A tap before the first statement, one before the last statement, and one afterwards: the first
two are refused. -/
theorem taps_refused_until_session_runs :
    let taps : List (Event ℕ) := [.tap (.captureImage 0)] ++ .replicate 10 .statement ++
      [.tap (.switchCameras ⟨.ok 1, true⟩), .statement, .tap (.captureImage 1)]
    ∃ es₁ es₂ u, taps = es₁ ++ es₂ ∧
      (machine ℕ).run (start (fun _ => none) [⟨0, .back⟩] ⟨.ok 0, true⟩) es₁ = some u ∧
      (machine ℕ).log answered (start (fun _ => none) [⟨0, .back⟩] ⟨.ok 0, true⟩) es₁ =
        (machine ℕ).log refused (start (fun _ => none) [⟨0, .back⟩] ⟨.ok 0, true⟩) es₁ ∧
      (es₂ = [] ∨ u.preparation = .ended ()) := by
  intro taps
  obtain ⟨es₁, es₂, u, hes, hu, hlog, -, hend⟩ := taps_refused
    (show (machine ℕ).run (start (fun _ => none) [⟨0, .back⟩] ⟨.ok 0, true⟩) taps = some _ from rfl)
  exact ⟨es₁, es₂, u, hes, hu, hlog, hend⟩

/-- The preview is in the view once the handler has been called after a preparation without an
error. -/
structure Previewed (s : Startup κ) : Prop where
  kept : (background.map s).Kept (fun c => ¬c.IsRunning) fun c => c.IsRunning
  isOver : s.isHandled = true → s.preparation.isOver = true
  preview : s.hasPreview = true ↔ s.isHandled = true ∧ s.preparation = .ended ()

/-- When the preparation is over, the session runs if it has ended without an error. -/
theorem Previewed.isRunning_iff (h : s.Previewed) (hover : s.preparation.isOver = true) :
    s.cameraController.IsRunning ↔ s.preparation = .ended () := by
  obtain ⟨hkept, -, -⟩ := h
  obtain ⟨cameraController, preparation, isHandled, hasPreview⟩ := s
  cases preparation with
  | ended a => exact iff_of_true hkept rfl
  | threw e => exact iff_of_false hkept (by simp)
  | next f k => exact absurd hover (by simp [Routine.isOver])

theorem Previewed.step (h : s.Previewed) (ht : (machine κ).step s e = some t) : t.Previewed := by
  have hkept := Background.kept_run background unnoticed_tap trivial h.kept
    (Machine.run_singleton_eq_some.mpr ht)
  cases e with
  | statement =>
    obtain ⟨cameraController, preparation, isHandled, hasPreview⟩ := s
    cases preparation with
    | next f k =>
      obtain rfl := Option.some.inj ht
      have hunhandled : isHandled = false := by
        by_contra hhandled
        exact absurd (h.isOver (by simpa using hhandled)) (by simp [Routine.isOver])
      have hpreview : hasPreview = false := by
        by_contra hshown
        have hhandled := (h.preview.mp (by simpa using hshown)).1
        exact absurd hhandled (by simp [hunhandled])
      exact ⟨hkept, by simp [hunhandled], by simp [hunhandled, hpreview]⟩
    | ended a => exact absurd ht (by simp [machine])
    | threw e => exact absurd ht (by simp [machine])
  | completionHandler =>
    simp only [machine] at ht
    split_ifs at ht with hdue
    obtain rfl := Option.some.inj ht
    obtain ⟨hover, -⟩ := Bool.and_eq_true_iff.mp hdue
    refine ⟨hkept, fun _ => hover, ?_⟩
    rw [displayPreview_isOk_iff, h.isRunning_iff hover]
    simp
  | tap a =>
    obtain rfl := Option.some.inj ht
    exact ⟨hkept, h.isOver, h.preview⟩

/-- A preparation that has ended has ended. -/
theorem preparation_run (h : s.preparation = .ended ()) (hrun : (machine κ).run s es = some t) :
    t.preparation = .ended () := by
  refine Machine.run_invariant (I := fun s => s.preparation = .ended ()) ?_ h hrun
  intro s e t hs ht
  cases e with
  | statement => simp [machine, hs] at ht
  | completionHandler =>
    simp only [machine] at ht
    split_ifs at ht
    obtain rfl := Option.some.inj ht
    exact hs
  | tap a =>
    obtain rfl := Option.some.inj ht
    exact hs

/-- When the preparation is over, it has ended as it does alone. -/
theorem ended_iff (hrun : (machine κ).run (start lock cameras o) es = some t)
    (hover : t.preparation.isOver = true) : t.preparation = .ended () ↔
      (result (CameraController.prepare lock cameras o) (.new : CameraController κ)).1 =
        .ok () := by
  obtain ⟨es₁, es₂, u, rfl, hu, -, hresult, hend⟩ := exists_prefix hrun
  obtain ⟨u', hu', hrest⟩ := Machine.run_append_eq_some.mp hrun
  obtain rfl := Option.some.inj (hu'.symm.trans hu)
  rw [← hresult]
  rcases hend with rfl | hended
  · obtain rfl := Option.some.inj hrest
    obtain ⟨cameraController, preparation, isHandled, hasPreview⟩ := u'
    cases preparation with
    | ended a => exact iff_of_true rfl rfl
    | threw e => simp [Routine.result]
    | next f k => exact absurd hover (by simp [Routine.isOver])
  · exact iff_of_true (preparation_run hended hrest) (by rw [hended]; rfl)

/-- **The preview.** In every interleaving, the preview is in the view once the completion handler
has been called, if `prepare` alone ends without an error. Otherwise it never is. -/
theorem hasPreview_iff (hrun : (machine κ).run (start lock cameras o) es = some t) :
    t.hasPreview = true ↔ t.isHandled = true ∧
      (result (CameraController.prepare lock cameras o) (.new : CameraController κ)).1 =
        .ok () := by
  have hstart : (start lock cameras o : Startup κ).Previewed :=
    ⟨kept_start lock cameras o, by simp [start], by simp [start]⟩
  have ht : t.Previewed := Machine.run_invariant (fun h ht => h.step ht) hstart hrun
  rw [ht.preview]
  exact and_congr_right fun hhandled => ended_iff hrun (ht.isOver hhandled)

/-- A phone without a camera: the handler is called, and there is no preview. -/
theorem hasPreview_iff_no_camera :
    ∃ t : Startup ℕ, (machine ℕ).run (start (fun _ => none) [] ⟨.ok 0, true⟩)
        [.statement, .tap (.switchCameras ⟨.ok 1, true⟩), .completionHandler] = some t ∧
      t.isHandled = true ∧ ¬t.hasPreview = true := by
  obtain ⟨t, hrun⟩ : ∃ t : Startup ℕ, (machine ℕ).run (start (fun _ => none) [] ⟨.ok 0, true⟩)
    [.statement, .tap (.switchCameras ⟨.ok 1, true⟩), .completionHandler] = some t := ⟨_, rfl⟩
  refine ⟨t, hrun, ?_, fun hshown => ?_⟩
  · obtain rfl := Option.some.inj hrun
    rfl
  · exact absurd ((hasPreview_iff hrun).mp hshown).2 (by decide)

end Startup

end SnapYak
