import SnapYak.Camera.Controller
import SnapYak.Machine.Run

/-!
# Switching between the cameras

`switchCameras` opens a configuration of the session, replaces the input of one camera by that of
the other, and commits. Each of the errors on the way leaves the configuration open, and the last
one leaves the session without any input, so that no later switch can succeed.

A session is in order as long as no switch throws, and no longer (`switching_iff`).

## Main definitions

* `CameraController.Ready` : no configuration is open, and the input of the current camera is the
  only one.
* `CameraController.Atomic` : a switch that throws keeps the inputs and the position.
* `CameraController.CanSwitch` : the other camera is there, and its input can be created and added.

## Main results

* `CameraController.switchCameras_cases` : the ways a switch can end.
* `CameraController.ready_prepare_iff` : when the preparation leaves the session in order.
* `CameraController.switching_iff` : the runs in which it stays so.
-/

open Throwing

namespace SnapYak

namespace CameraController

variable {κ : Type} {c : CameraController κ}

/-- The controller with another state of its session. -/
def withSession (c : CameraController κ) (session : AVCaptureSession) : CameraController κ :=
  { c with captureSession := some session }

/-- The controller after a switch whose input the session has refused. -/
def refused (c : CameraController κ) (session : AVCaptureSession) (position : CameraPosition)
    (old input : AVCaptureDeviceInput) : CameraController κ :=
  (c.setCameraInput position input).withSession (session.removeInput old)

/-- The controller after a switch. -/
def switched (c : CameraController κ) (session : AVCaptureSession) (position : CameraPosition)
    (old input : AVCaptureDeviceInput) : CameraController κ :=
  { (c.setCameraInput position input).withSession ((session.removeInput old).addInput input) with
    currentCameraPosition := some position }

section Fields

variable (session : AVCaptureSession) (position : CameraPosition)
  (old input : AVCaptureDeviceInput)

@[simp] theorem captureSession_setCameraInput :
    (c.setCameraInput position input).captureSession = c.captureSession := by
  cases position <;> rfl

@[simp] theorem currentCameraPosition_setCameraInput :
    (c.setCameraInput position input).currentCameraPosition = c.currentCameraPosition := by
  cases position <;> rfl

@[simp] theorem cameraInput_setCameraInput :
    (c.setCameraInput position input).cameraInput position = some input := by
  cases position <;> rfl

@[simp] theorem refused_withSession (session' : AVCaptureSession) :
    (c.withSession session').refused session position old input =
      c.refused session position old input := by
  cases position <;> rfl

@[simp] theorem switched_withSession (session' : AVCaptureSession) :
    (c.withSession session').switched session position old input =
      c.switched session position old input := by
  cases position <;> rfl

end Fields

/-! ### What a switch does -/

/-- Nothing that a switch to a camera needs is missing: the camera is there, and an input can be
created for it. -/
def CanCreate (c : CameraController κ) (position : CameraPosition) (o : Attachment) : Prop :=
  (c.camera position).isSome ∧ o.creation.isOk

/-- The ways in which a switch to a camera can end. -/
theorem switchTo_cases (position : CameraPosition) (o : Attachment) {session : AVCaptureSession}
    (hsession : c.captureSession = some session) :
    (∃ e, result (switchTo position o) c = (.error e, c) ∧
      ∀ old, c.cameraInput position.other = some old → old ∈ session.inputs →
        ¬c.CanCreate position o) ∨
    ∃ old input, c.cameraInput position.other = some old ∧ old ∈ session.inputs ∧
      c.CanCreate position o ∧ result (switchTo position o) c =
        if o.canAddInput then (.ok (), c.switched session position old input)
        else (.error .invalidOperation, c.refused session position old input) := by
  cases hold : c.cameraInput position.other with
  | none => exact Or.inl ⟨.invalidOperation, by simp [switchTo, hold], by simp⟩
  | some old =>
    cases hcamera : c.camera position with
    | none =>
      exact Or.inl ⟨.invalidOperation, by simp [switchTo, hold, hsession, hcamera],
        by simp [CanCreate, hcamera]⟩
    | some camera =>
      by_cases hmem : old ∈ session.inputs
      · cases hcreate : o.creation with
        | error e =>
          exact Or.inl ⟨e, by simp [switchTo, hold, hsession, hcamera, hmem, createInput, hcreate],
            by simp [CanCreate, hcreate, Except.isOk, Except.toBool]⟩
        | ok identity =>
          refine Or.inr ⟨old, ⟨identity, camera⟩, rfl, hmem, ?_, ?_⟩
          · simp [CanCreate, hcamera, hcreate, Except.isOk, Except.toBool]
          · by_cases hadd : o.canAddInput <;>
              simp [switchTo, hold, hsession, hcamera, hmem, createInput, hcreate, hadd,
                modifySession, switched, refused, withSession]
      · refine Or.inl ⟨.invalidOperation, by simp [switchTo, hold, hsession, hcamera, hmem], ?_⟩
        rintro _ ⟨⟩ h
        exact absurd h hmem

/-- The ways in which `switchCameras` can end: the session is not running; an error before the old
input is removed; and after that, with the new input refused or added. -/
inductive SwitchCases (c : CameraController κ) (o : Attachment) :
    Except CameraError Unit × CameraController κ → Prop
  | unprepared (hidle : ∀ session position, c.captureSession = some session →
      c.currentCameraPosition = some position → session.isRunning = false) :
      SwitchCases c o (.error .captureSessionIsMissing, c)
  | failed {session : AVCaptureSession} {position : CameraPosition} {e : CameraError}
      (hsession : c.captureSession = some session)
      (hposition : c.currentCameraPosition = some position)
      (hfail : ∀ old, c.cameraInput position = some old → old ∈ session.inputs →
        ¬c.CanCreate position.other o) :
      SwitchCases c o (.error e, c.withSession session.beginConfiguration)
  | refused {session : AVCaptureSession} {position : CameraPosition}
      {old input : AVCaptureDeviceInput} (hsession : c.captureSession = some session)
      (hposition : c.currentCameraPosition = some position) (hadd : o.canAddInput = false) :
      SwitchCases c o
        (.error .invalidOperation, c.refused session.beginConfiguration position.other old input)
  | switched {session : AVCaptureSession} {position : CameraPosition}
      {old input : AVCaptureDeviceInput} (hsession : c.captureSession = some session)
      (hposition : c.currentCameraPosition = some position)
      (hold : c.cameraInput position = some old) (hmem : old ∈ session.inputs)
      (hcreate : c.CanCreate position.other o) (hadd : o.canAddInput = true) :
      SwitchCases c o (.ok (), (c.switched session.beginConfiguration position.other old
        input).withSession ((session.beginConfiguration.removeInput old).addInput
          input).commitConfiguration)

theorem switchCameras_cases (c : CameraController κ) (o : Attachment) :
    SwitchCases c o (result (switchCameras o) c) := by
  cases hsession : c.captureSession with
  | none =>
    have : result (switchCameras o) c = (.error .captureSessionIsMissing, c) := by
      simp [switchCameras, hsession]
    exact this ▸ .unprepared (by simp [hsession])
  | some session =>
    cases hposition : c.currentCameraPosition with
    | none =>
      have : result (switchCameras o) c = (.error .captureSessionIsMissing, c) := by
        simp [switchCameras, hposition]
      exact this ▸ .unprepared (by simp [hposition])
    | some position =>
      by_cases hrunning : session.isRunning
      · -- The configuration is open when the body of the switch runs.
        have hbegin : (c.withSession session.beginConfiguration).captureSession =
          some session.beginConfiguration := rfl
        have hrun : result (switchCameras o) c =
            result (switchTo position.other o >>= fun _ => modifySession .commitConfiguration)
              (c.withSession session.beginConfiguration) := by
          cases position <;>
            simp only [switchCameras, result_bind, result_get, hsession, hposition, hrunning,
              Bool.not_true, Bool.false_eq_true, ↓reduceIte, modifySession, result_modify,
              Option.map_some, switchToRearCamera, switchToFrontCamera, CameraPosition.other,
              withSession]
        rw [hrun, result_bind]
        rcases switchTo_cases position.other o hbegin with
          ⟨e, he, hfail⟩ | ⟨old, input, hold, hmem, hcreate, hres⟩
        · rw [he]
          exact .failed hsession hposition fun old hold => hfail old (by
            cases position <;> exact hold)
        · by_cases hadd : o.canAddInput
          · rw [hres, if_pos hadd, switched_withSession]
            exact .switched hsession hposition (by cases position <;> exact hold) hmem
              (by cases position <;> exact hcreate) hadd
          · rw [hres, if_neg hadd, refused_withSession]
            exact .refused hsession hposition (by simpa using hadd)
      · have : result (switchCameras o) c = (.error .captureSessionIsMissing, c) := by
          simp [switchCameras, hsession, hposition, hrunning]
        refine this ▸ .unprepared ?_
        rintro _ _ hs -
        obtain rfl := Option.some.inj (hsession.symm.trans hs)
        simpa using hrunning

/-- A switch changes the position exactly when it does not throw. -/
theorem position_switchCameras (c : CameraController κ) (o : Attachment) :
    (result (switchCameras o) c).2.currentCameraPosition =
      if (result (switchCameras o) c).1.isOk then c.currentCameraPosition.map CameraPosition.other
      else c.currentCameraPosition := by
  have hcases := switchCameras_cases c o
  generalize result (switchCameras o) c = r at hcases ⊢
  cases hcases with
  | unprepared _ | failed _ _ _ => rfl
  | refused _ _ _ => simp [refused, withSession, Except.isOk, Except.toBool]
  | switched _ hposition _ _ _ _ =>
    simp [switched, withSession, Except.isOk, Except.toBool, hposition]

/-- What a switch never touches: the session goes on running, and the photo output and the stored
completion stay. -/
theorem switchCameras_keeps (c : CameraController κ) (o : Attachment) :
    (result (switchCameras o) c).2.captureSession.map AVCaptureSession.isRunning =
      c.captureSession.map AVCaptureSession.isRunning ∧
    (result (switchCameras o) c).2.hasPhotoOutput = c.hasPhotoOutput ∧
    (result (switchCameras o) c).2.photoCaptureCompletion = c.photoCaptureCompletion := by
  have hcases := switchCameras_cases c o
  generalize result (switchCameras o) c = r at hcases ⊢
  cases hcases with
  | unprepared _ => exact ⟨rfl, rfl, rfl⟩
  | failed hsession _ _ => exact ⟨by rw [hsession]; rfl, rfl, rfl⟩
  | @refused _ position _ _ hsession _ _ =>
    cases position <;> exact ⟨by rw [hsession]; rfl, rfl, rfl⟩
  | @switched _ position _ _ hsession _ _ _ _ _ =>
    cases position <;> exact ⟨by rw [hsession]; rfl, rfl, rfl⟩

/-! ### Sessions in order -/

/-- The session is running, no configuration is open, and the attached inputs are exactly the input
of the current camera. -/
def Ready (c : CameraController κ) : Prop :=
  ∃ session position input, c.captureSession = some session ∧ session.isRunning = true ∧
    session.openConfigurations = 0 ∧ c.currentCameraPosition = some position ∧
    c.cameraInput position = some input ∧ session.inputs = [input]

/-- If `switchCameras` throws, it keeps the inputs of the session and the position. -/
def Atomic (c : CameraController κ) (o : Attachment) : Prop :=
  ∀ e, (result (switchCameras o) c).1 = .error e →
    (result (switchCameras o) c).2.captureSession.map AVCaptureSession.inputs =
      c.captureSession.map AVCaptureSession.inputs ∧
    (result (switchCameras o) c).2.currentCameraPosition = c.currentCameraPosition

/-- There is another camera than the current one, an input can be created for it, and the session
accepts the input. -/
def CanSwitch (c : CameraController κ) (o : Attachment) : Prop :=
  (∃ position, c.currentCameraPosition = some position ∧ c.CanCreate position.other o) ∧
    o.canAddInput = true

/-- All sequences of switches. -/
def machine (κ : Type) : Machine (CameraController κ) Attachment where
  step c o := some (result (switchCameras o) c).2

theorem Ready.openConfigurations_eq (h : c.Ready) {session : AVCaptureSession}
    (hsession : c.captureSession = some session) : session.openConfigurations = 0 := by
  obtain ⟨_, _, _, hs, -, hopen, -⟩ := h
  rwa [Option.some.inj (hsession.symm.trans hs)]

/-- A switch of a session in order leaves it in order exactly when it has all that it needs, and
then it does not throw. -/
theorem Ready.switchCameras (h : c.Ready) (o : Attachment) :
    ((result (switchCameras o) c).2.Ready ↔ c.CanSwitch o) ∧
      (c.CanSwitch o → (result (switchCameras o) c).1 = .ok ()) := by
  obtain ⟨session, position, input, hsession, hrunning, hopen, hposition, hinput, hinputs⟩ := h
  have hcan : c.CanSwitch o ↔ c.CanCreate position.other o ∧ o.canAddInput = true := by
    simp [CanSwitch, hposition]
  -- An open configuration is never closed by a switch that throws.
  have hnot (c' : CameraController κ) (session' : AVCaptureSession)
      (hsession' : c'.captureSession = some session') (hopen' : session'.openConfigurations = 1) :
      ¬c'.Ready := fun hr => by
    rw [hr.openConfigurations_eq hsession'] at hopen'
    exact absurd hopen' (by decide)
  have hcases := switchCameras_cases c o
  generalize result (CameraController.switchCameras o) c = r at hcases ⊢
  cases hcases with
  | unprepared hidle => simp [hidle session position hsession hposition] at hrunning
  | failed hs hp hfail =>
    obtain rfl := Option.some.inj (hsession.symm.trans hs)
    obtain rfl := Option.some.inj (hposition.symm.trans hp)
    have hno : ¬c.CanSwitch o := fun hc => hfail input hinput (by simp [hinputs]) (hcan.mp hc).1
    exact ⟨iff_of_false (hnot _ _ rfl (by simp [AVCaptureSession.beginConfiguration, hopen])) hno,
      fun hc => absurd hc hno⟩
  | refused hs hp hadd =>
    obtain rfl := Option.some.inj (hsession.symm.trans hs)
    have hno : ¬c.CanSwitch o := fun hc => by simp [hadd] at hcan; exact hcan hc
    exact ⟨iff_of_false (hnot _ _ rfl (by
      simp [AVCaptureSession.removeInput, AVCaptureSession.beginConfiguration, hopen])) hno,
      fun hc => absurd hc hno⟩
  | @switched s p old new hs hp hold hmem hcreate hadd =>
    obtain rfl := Option.some.inj (hsession.symm.trans hs)
    obtain rfl := Option.some.inj (hposition.symm.trans hp)
    obtain rfl := Option.some.inj (hinput.symm.trans hold)
    refine ⟨iff_of_true ⟨_, position.other, new, rfl, ?_⟩ (hcan.mpr ⟨hcreate, hadd⟩), fun _ => rfl⟩
    refine ⟨hrunning, ?_, rfl, ?_, ?_⟩
    · simp [AVCaptureSession.commitConfiguration, AVCaptureSession.addInput,
        AVCaptureSession.removeInput, AVCaptureSession.beginConfiguration, hopen]
    · cases position <;> rfl
    · simp [AVCaptureSession.commitConfiguration, AVCaptureSession.addInput,
        AVCaptureSession.removeInput, AVCaptureSession.beginConfiguration, hinputs]

/-! ### Preparation -/

/-- The loop over the cameras stores cameras and nothing else. -/
theorem configureCameras_keeps (lock : AVCaptureDevice → Option CameraError) :
    (cameras : List AVCaptureDevice) → (c : CameraController κ) → ∃ front rear,
      (result (configureCameras lock cameras) c).2 =
        { c with frontCamera := front, rearCamera := rear }
  | [], c => ⟨c.frontCamera, c.rearCamera, rfl⟩
  | camera :: cameras, c => by
    cases hpos : camera.position with
    | unspecified =>
      obtain ⟨front, rear, h⟩ := configureCameras_keeps lock cameras c
      exact ⟨front, rear, by simpa [configureCameras, hpos] using h⟩
    | front =>
      obtain ⟨front, rear, h⟩ :=
        configureCameras_keeps lock cameras { c with frontCamera := some camera }
      exact ⟨front, rear, by simpa [configureCameras, hpos] using h⟩
    | back =>
      cases hlock : lock camera with
      | some e =>
        exact ⟨c.frontCamera, some camera, by simp [configureCameras, hpos, hlock]⟩
      | none =>
        obtain ⟨front, rear, h⟩ :=
          configureCameras_keeps lock cameras { c with rearCamera := some camera }
        exact ⟨front, rear, by simpa [configureCameras, hpos, hlock] using h⟩

/-- What the attachment of the first input leaves when it does not throw. A rear input that is
refused is not attached; a refused front input throws. -/
theorem configureDeviceInputs_eq_ok {c c' : CameraController κ} {o : Attachment}
    {session : AVCaptureSession} (hsession : c.captureSession = some session)
    (h : result (configureDeviceInputs o) c = (.ok (), c')) : ∃ position input,
      c' = { (c.setCameraInput position input).withSession
          (if o.canAddInput then session.addInput input else session) with
        currentCameraPosition := some position } := by
  simp only [configureDeviceInputs, result_bind, result_get, hsession, Option.isNone_some,
    Bool.false_eq_true, ↓reduceIte, createInput, modifySession] at h
  cases hrear : c.rearCamera with
  | some rearCamera =>
    cases hcreate : o.creation with
    | error e => simp [hrear, hcreate] at h
    | ok identity =>
      refine ⟨.rear, ⟨identity, rearCamera⟩, ?_⟩
      cases hadd : o.canAddInput with
      | true => simpa [hrear, hcreate, hadd, hsession, withSession] using h.symm
      | false =>
        simpa [hrear, hcreate, hadd, hsession, withSession, setCameraInput] using h.symm
  | none =>
    cases hfront : c.frontCamera with
    | none => simp [hrear, hfront] at h
    | some frontCamera =>
      cases hcreate : o.creation with
      | error e => simp [hrear, hfront, hcreate] at h
      | ok identity =>
        refine ⟨.front, ⟨identity, frontCamera⟩, ?_⟩
        cases hadd : o.canAddInput with
        | true => simpa [hrear, hfront, hcreate, hadd, hsession, withSession] using h.symm
        | false => simp [hrear, hfront, hcreate, hadd] at h

/-- What a preparation without an error leaves. -/
theorem prepare_eq_ok {lock : AVCaptureDevice → Option CameraError}
    {cameras : List AVCaptureDevice} {o : Attachment}
    (h : result (prepare lock cameras o) .new = (.ok (), c)) : ∃ position input,
      c.captureSession = some ⟨if o.canAddInput then [input] else [], 0, true⟩ ∧
      c.currentCameraPosition = some position ∧ c.cameraInput position = some input ∧
      c.hasPhotoOutput = true := by
  obtain ⟨_, c₀, hnew, h⟩ := result_bind_eq_ok.mp h
  obtain ⟨_, c₁, hdevices, h⟩ := result_bind_eq_ok.mp h
  obtain ⟨_, c₂, hinputs, houtput⟩ := result_bind_eq_ok.mp h
  have hsession : c₁.captureSession = some .new := by
    obtain rfl : { new with captureSession := some .new } = c₀ := (Prod.mk.inj hnew).2
    rw [configureCaptureDevices] at hdevices
    split_ifs at hdevices
    · simp at hdevices
    · obtain ⟨_, _, hkeep⟩ := configureCameras_keeps lock cameras
        ({ new with captureSession := some .new } : CameraController κ)
      simp only [hdevices] at hkeep
      rw [hkeep]
  obtain ⟨position, input, rfl⟩ := configureDeviceInputs_eq_ok hsession hinputs
  refine ⟨position, input, ?_⟩
  simp [configurePhotoOutput, modifySession, withSession] at houtput
  subst houtput
  refine ⟨?_, rfl, by cases position <;> rfl, rfl⟩
  cases o.canAddInput <;> rfl

/-- A preparation without an error leaves the session in order exactly when the session has accepted
the input. -/
theorem ready_prepare_iff {lock : AVCaptureDevice → Option CameraError}
    {cameras : List AVCaptureDevice} {o : Attachment}
    (h : result (prepare lock cameras o) .new = (.ok (), c)) :
    c.Ready ↔ o.canAddInput = true := by
  obtain ⟨position, input, hsession, hposition, hinput, -⟩ := prepare_eq_ok h
  constructor
  · rintro ⟨session, _, _, hs, -, -, -, -, hattached⟩
    obtain rfl := Option.some.inj (hsession.symm.trans hs)
    by_contra hadd
    simp [hadd] at hattached
  · intro hadd
    exact ⟨_, position, input, hsession, rfl, rfl, hposition, hinput, by simp [hadd]⟩

/-- **Switching.** After a preparation without an error and any sequence of switches, no
configuration is left open, the attached inputs are always exactly that of the current camera, and a
switch that throws keeps the inputs and the position, if and only if the session accepted the input
in the preparation, and at every switch the other camera is there, its input can be created, and the
session accepts it. -/
theorem switching_iff {lock : AVCaptureDevice → Option CameraError}
    {cameras : List AVCaptureDevice} {o : Attachment}
    (hprepare : result (prepare lock cameras o) .new = (.ok (), c)) (switches : List Attachment) :
    (machine κ).Visits Ready c switches ∧ (machine κ).Along Atomic c switches ↔
      o.canAddInput = true ∧ (machine κ).Along CanSwitch c switches := by
  obtain ⟨t, hrun⟩ := (machine κ).exists_run (fun _ _ => ⟨_, rfl⟩) c switches
  have hstep {s t : CameraController κ} {o : Attachment} (hs : s.Ready)
      (ht : (machine κ).step s o = some t) : t.Ready ↔ s.CanSwitch o := by
    obtain rfl := Option.some.inj ht
    exact (hs.switchCameras o).1
  constructor
  · rintro ⟨hvisits, -⟩
    have hready := hvisits.head
    exact ⟨(ready_prepare_iff hprepare).mp hready,
      (Machine.visits_iff_along hstep hready hrun).mp hvisits⟩
  · rintro ⟨hadd, hcan⟩
    have hready := (ready_prepare_iff hprepare).mpr hadd
    refine ⟨(Machine.visits_iff_along hstep hready hrun).mpr hcan, ?_⟩
    refine hcan.of_invariant (I := Ready) (fun hs hA ht => (hstep hs ht).mpr hA)
      (fun hs hA e he => ?_) hready
    -- A switch that has all that it needs does not throw.
    rw [(hs.switchCameras _).2 hA] at he
    exact absurd he (by simp)

/-- The controller on a phone with both cameras, after a preparation in which nothing fails. -/
def onPhone : CameraController κ :=
  (result (prepare (fun _ => none) [⟨0, .back⟩, ⟨1, .front⟩] ⟨.ok 0, true⟩) .new).2

theorem prepare_onPhone : result (prepare (fun _ => none) [⟨0, .back⟩, ⟨1, .front⟩] ⟨.ok 0, true⟩)
    .new = (.ok (), (onPhone : CameraController κ)) := rfl

/-- A phone that switches to the front and back. -/
theorem switching_iff_front_and_back :
    (machine Unit).Visits Ready onPhone [⟨.ok 1, true⟩, ⟨.ok 2, true⟩] ∧
      (machine Unit).Along Atomic onPhone [⟨.ok 1, true⟩, ⟨.ok 2, true⟩] :=
  (switching_iff prepare_onPhone _).mpr
    ⟨rfl, ⟨⟨.rear, rfl, rfl, rfl⟩, rfl⟩, ⟨⟨.front, rfl, rfl, rfl⟩, rfl⟩, trivial⟩

/-- **A switch that is not undone.** The session refuses the input of the front camera: the switch
throws, the configuration stays open, and the session is left without an input. The next switch
throws as well, although nothing would be refused this time. -/
theorem switch_refused :
    (onPhone : CameraController Unit).captureSession = some ⟨[⟨0, ⟨0, .back⟩⟩], 0, true⟩ ∧
    ∃ c : CameraController Unit,
      result (switchCameras ⟨.ok 1, false⟩) onPhone = (.error .invalidOperation, c) ∧
      c.captureSession = some ⟨[], 1, true⟩ ∧ c.currentCameraPosition = some .rear ∧
      (result (switchCameras ⟨.ok 2, true⟩) c).1 = .error .invalidOperation :=
  ⟨rfl, _, rfl, rfl, rfl, rfl⟩

end CameraController

end SnapYak
