import ConstructServer.Library.RedisStream
import ConstructServer.Queue.Envelope

/-!
# Writing an envelope to the mailbox streams

An account has a user stream and a stream for each of its devices. A delivery writes the envelope
to the user stream, while that is enabled, and to the stream of each target device; one failed
device is tolerated as long as some write lands.
-/

namespace ConstructServer.Queue

open Redis List

abbrev Streams := List (String × StreamFields)

structure DeliveryConfig where
  deliveryQueuePrefix : String
  /-- `MSG_MAILBOX_USER_WRITE`. -/
  mailboxUserWrite : Bool

/-- How the writes of one delivery end. -/
structure WriteOutcomes where
  user : Outcome
  device : String → Outcome

section

variable (cfg : DeliveryConfig) (codec : EnvelopeCodec)

def userStreamKey (userId : String) : String := cfg.deliveryQueuePrefix ++ ":offline:" ++ userId

def deviceStreamKey (userId deviceId : String) : String :=
  cfg.deliveryQueuePrefix ++ ":offline:" ++ userId ++ ":" ++ deviceId

def xaddTo (streams : Streams) (key : String) (fields : StreamFields) (o : Outcome) : Streams :=
  if o = .failed then streams else streams ++ [(key, fields)]

def writeUser (outcomes : WriteOutcomes) (streams : Streams) (userId : String)
    (env : MessageEnvelope) : Streams :=
  if cfg.mailboxUserWrite then
    xaddTo streams (userStreamKey cfg userId) (encodeFields codec env) outcomes.user
  else streams

def writeDevices (outcomes : WriteOutcomes) (streams : Streams) (userId : String)
    (deviceIds : List String) (env : MessageEnvelope) : Streams :=
  deviceIds.foldl (fun streams deviceId =>
    xaddTo streams (deviceStreamKey cfg userId deviceId) (encodeFields codec env)
      (outcomes.device deviceId)) streams

def writeMessageToDeviceStreams (outcomes : WriteOutcomes) (streams : Streams) (userId : String)
    (deviceIds : List String) (env : MessageEnvelope) : Except String Unit × Streams :=
  let afterUser := writeUser cfg codec outcomes streams userId env
  if cfg.mailboxUserWrite ∧ outcomes.user ≠ .ok then
    (.error "Failed to write message to Redis stream", afterUser)
  else
    let afterDevices := writeDevices cfg codec outcomes afterUser userId deviceIds env
    let deviceWritesOk := deviceIds.countP fun deviceId => outcomes.device deviceId = .ok
    if !cfg.mailboxUserWrite ∧ deviceWritesOk = 0 then
      (.error ("No mailbox to write: user-stream writes are disabled (MSG_MAILBOX_USER_WRITE=0) "
        ++ "and none of the " ++ toString deviceIds.length ++ " device stream writes for recipient "
        ++ userId ++ " landed"), afterDevices)
    else (.ok (), afterDevices)

/-- The user-stream write has to succeed while it is enabled, and otherwise one of the others. -/
def writesLand (outcomes : WriteOutcomes) (deviceIds : List String) : Bool :=
  if cfg.mailboxUserWrite then outcomes.user = .ok
  else deviceIds.any fun deviceId => outcomes.device deviceId = .ok

def readKeys (userId : String) (deviceId : Option String) : List String :=
  match deviceId.filter (· ≠ "") with
  | none => [userStreamKey cfg userId]
  | some deviceId => [deviceStreamKey cfg userId deviceId, userStreamKey cfg userId]

end

section

variable {cfg : DeliveryConfig} {userId deviceId deviceId' : String}

theorem deviceStreamKey_inj : deviceStreamKey cfg userId deviceId = deviceStreamKey cfg userId deviceId' ↔
      deviceId = deviceId' :=
  String.append_right_inj _

theorem userStreamKey_ne_deviceStreamKey :
    userStreamKey cfg userId ≠ deviceStreamKey cfg userId deviceId := by
  intro h
  have hl := congrArg String.length h
  simp only [userStreamKey, deviceStreamKey, String.length_append] at hl
  have hco : (":" : String).length = 1 := rfl
  omega

end

section

variable {cfg : DeliveryConfig} {codec : EnvelopeCodec} {outcomes : WriteOutcomes}
  {streams : Streams} {userId : String} {deviceIds : List String} {env : MessageEnvelope}
  {key : String} {fields : StreamFields} {o : Outcome} {e : String × StreamFields}

theorem subset_xaddTo : streams ⊆ xaddTo streams key fields o := by
  unfold xaddTo
  split_ifs
  · exact Subset.refl _
  · exact subset_append_left _ _

theorem mem_xaddTo (h : e ∈ xaddTo streams key fields o) : e ∈ streams ∨ e = (key, fields) := by
  unfold xaddTo at h
  split_ifs at h
  · exact .inl h
  · simpa using h

theorem mem_xaddTo_ok : (key, fields) ∈ xaddTo streams key fields .ok := by
  simp [xaddTo]

theorem subset_writeUser : streams ⊆ writeUser cfg codec outcomes streams userId env := by
  unfold writeUser
  split_ifs
  · exact subset_xaddTo
  · exact Subset.refl _

theorem mem_writeUser (h : e ∈ writeUser cfg codec outcomes streams userId env) :
    e ∈ streams ∨ e = (userStreamKey cfg userId, encodeFields codec env) := by
  unfold writeUser at h
  split_ifs at h
  · exact mem_xaddTo h
  · exact .inl h

theorem writeDevices_cons (deviceId : String) :
    writeDevices cfg codec outcomes streams userId (deviceId :: deviceIds) env = writeDevices cfg codec outcomes
        (xaddTo streams (deviceStreamKey cfg userId deviceId) (encodeFields codec env)
          (outcomes.device deviceId)) userId deviceIds env :=
  rfl

theorem subset_writeDevices : streams ⊆ writeDevices cfg codec outcomes streams userId deviceIds env := by
  unfold writeDevices
  induction deviceIds generalizing streams with
  | nil => exact Subset.refl _
  | cons deviceId deviceIds ih => exact Subset.trans subset_xaddTo ih

theorem mem_writeDevices (h : e ∈ writeDevices cfg codec outcomes streams userId deviceIds env) :
    e ∈ streams ∨
      ∃ deviceId ∈ deviceIds, e = (deviceStreamKey cfg userId deviceId, encodeFields codec env) := by
  unfold writeDevices at h
  induction deviceIds generalizing streams with
  | nil => exact .inl h
  | cons deviceId deviceIds ih =>
    rcases ih h with h | ⟨d, hd, heq⟩
    · rcases mem_xaddTo h with h | h
      · exact .inl h
      · exact .inr ⟨deviceId, by simp, h⟩
    · exact .inr ⟨d, by simp [hd], heq⟩

theorem mem_writeDevices_of_ok {deviceId : String} (hm : deviceId ∈ deviceIds)
    (hok : outcomes.device deviceId = .ok) : (deviceStreamKey cfg userId deviceId, encodeFields codec env) ∈
      writeDevices cfg codec outcomes streams userId deviceIds env := by
  induction deviceIds generalizing streams with
  | nil => cases hm
  | cons d deviceIds ih =>
    rcases mem_cons.mp hm with rfl | hm
    · have hf : (deviceStreamKey cfg userId deviceId, encodeFields codec env) ∈
          xaddTo streams (deviceStreamKey cfg userId deviceId) (encodeFields codec env)
            (outcomes.device deviceId) := by
        rw [hok]
        exact mem_xaddTo_ok
      rw [writeDevices_cons]
      exact subset_writeDevices hf
    · exact ih hm

theorem subset_write :
    streams ⊆ (writeMessageToDeviceStreams cfg codec outcomes streams userId deviceIds env).2 := by
  simp only [writeMessageToDeviceStreams]
  split_ifs
  · exact subset_writeUser
  · exact Subset.trans subset_writeUser subset_writeDevices
  · exact Subset.trans subset_writeUser subset_writeDevices

theorem mem_write (h : e ∈ (writeMessageToDeviceStreams cfg codec outcomes streams userId deviceIds env).2) :
    e ∈ streams ∨ e.2 = encodeFields codec env := by
  have hde : e ∈ writeDevices cfg codec outcomes
      (writeUser cfg codec outcomes streams userId env) userId deviceIds env →
      e ∈ streams ∨ e.2 = encodeFields codec env := by
    intro h
    rcases mem_writeDevices h with h | ⟨d, -, rfl⟩
    · exact (mem_writeUser h).imp_right fun heq => by rw [heq]
    · exact .inr rfl
  simp only [writeMessageToDeviceStreams] at h
  split_ifs at h
  · exact (mem_writeUser h).imp_right fun heq => by rw [heq]
  · exact hde h
  · exact hde h

theorem write_ok_iff :
    (writeMessageToDeviceStreams cfg codec outcomes streams userId deviceIds env).1 = .ok () ↔
      writesLand cfg outcomes deviceIds = true := by
  have hco : deviceIds.countP (fun deviceId => outcomes.device deviceId = .ok) = 0 ↔
      deviceIds.any (fun deviceId => outcomes.device deviceId = .ok) = false := by
    rw [countP_eq_zero, any_eq_false]
  simp only [writeMessageToDeviceStreams, writesLand, hco]
  cases cfg.mailboxUserWrite with
  | true => by_cases hu : outcomes.user = .ok <;> simp [hu]
  | false =>
    cases deviceIds.any (fun deviceId => outcomes.device deviceId = .ok) <;> simp

theorem exists_of_write_ok
    (h : (writeMessageToDeviceStreams cfg codec outcomes streams userId deviceIds env).1 = .ok ()) :
    ∃ key, (key = userStreamKey cfg userId ∨
        ∃ deviceId ∈ deviceIds, key = deviceStreamKey cfg userId deviceId) ∧ (key, encodeFields codec env) ∈
        (writeMessageToDeviceStreams cfg codec outcomes streams userId deviceIds env).2 := by
  have hl := write_ok_iff.mp h
  have hst : (writeMessageToDeviceStreams cfg codec outcomes streams userId deviceIds env).2 =
      writeDevices cfg codec outcomes (writeUser cfg codec outcomes streams userId env) userId
        deviceIds env := by
    simp only [writeMessageToDeviceStreams] at h ⊢
    split_ifs at h ⊢
    rfl
  rw [hst]
  unfold writesLand at hl
  split_ifs at hl with hu
  · refine ⟨_, .inl rfl, subset_writeDevices ?_⟩
    rw [writeUser, if_pos hu, of_decide_eq_true hl]
    exact mem_xaddTo_ok
  · obtain ⟨deviceId, hm, hok⟩ := any_eq_true.mp hl
    exact ⟨_, .inr ⟨deviceId, hm, rfl⟩, mem_writeDevices_of_ok hm (of_decide_eq_true hok)⟩

end

end ConstructServer.Queue
