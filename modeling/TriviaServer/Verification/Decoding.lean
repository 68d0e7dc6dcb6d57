import TriviaServer.Coding.Words
import TriviaServer.Verification.Conversations

/-! # What the bytes of a stream say

The frames on a connection are read in one way only, in both directions: the bytes determine
the requests and the responses, with every field. -/

namespace TriviaServer

open Coding ConversionHelper JsonSerializer

/-! ## Frames -/

theorem bigEndian_inj {m n : ℕ} (hm : m < 2 ^ 32) (hn : n < 2 ^ 32)
    (h : bigEndian m = bigEndian n) : m = n := by
  rw [← lengthOfBytes_bigEndian hm, ← lengthOfBytes_bigEndian hn]
  simp only [bigEndian, List.cons.injEq, and_true] at h
  rw [h.1, h.2.1, h.2.2.1, h.2.2.2]

theorem frame_inj {id id' : UInt8} {body body' s t : List UInt8} (hb : body.length < 2 ^ 32)
    (hb' : body'.length < 2 ^ 32)
    (h : id :: (bigEndian body.length ++ body) ++ s =
      id' :: (bigEndian body'.length ++ body') ++ t) : id = id' ∧ body = body' ∧ s = t := by
  simp only [List.cons_append, List.append_assoc, List.cons.injEq] at h
  obtain ⟨hid, h⟩ := h
  obtain ⟨hlength, h⟩ := List.append_inj h rfl
  obtain ⟨hbody, hrest⟩ := List.append_inj h (bigEndian_inj hb hb' hlength)
  exact ⟨hid, hbody, hrest⟩

theorem RequestId.toByte_inj {id id' : RequestId} (h : id.toByte = id'.toByte) : id = id' := by
  have hread := RequestId.ofByte_toByte id
  rw [h, RequestId.ofByte_toByte] at hread
  exact (Option.some.inj hread).symm

theorem RequestInfo.frame_apart {r r' : RequestInfo} (hr : r.buffer.length < 2 ^ 32)
    (hr' : r'.buffer.length < 2 ^ 32) : Apart RequestInfo.frame r r' := by
  intro s t h
  obtain ⟨hid, hbuffer, hrest⟩ := frame_inj hr hr' h
  refine ⟨?_, hrest⟩
  cases r
  cases r'
  cases RequestId.toByte_inj hid
  cases hbuffer
  rfl

/-! ## The fields of the responses -/

@[simp] theorem unsignedToJson_inj {m n : UInt32} :
    unsignedToJson m = unsignedToJson n ↔ m = n := by
  simp only [unsignedToJson, Json.numberUnsigned.injEq]
  exact UInt32.toUInt64_inj

@[simp] theorem unsignedToJson_ne_null (n : UInt32) : unsignedToJson n ≠ .null := by
  simp [unsignedToJson]

@[simp] theorem null_ne_unsignedToJson (n : UInt32) : .null ≠ unsignedToJson n := by
  simp [unsignedToJson]

theorem string_injective : Function.Injective Json.string := fun _ _ => Json.string.inj

theorem playerToJson_injective : Function.Injective playerToJson := by
  rintro ⟨⟩ ⟨⟩ h
  simp_all [playerToJson]

theorem roomDataToJson_injective : Function.Injective roomDataToJson := by
  rintro ⟨⟨⟩, isFinished, players⟩ ⟨⟨⟩, isFinished', players'⟩ h
  simp_all [roomDataToJson, List.map_inj_right playerToJson_injective]

theorem playerStatsToJson_injective : Function.Injective playerStatsToJson := by
  rintro ⟨average, _⟩ ⟨average', _⟩ h
  cases average <;> cases average' <;> simp_all [playerStatsToJson]

theorem toInt64_injective : Function.Injective Int32.toInt64 :=
  Function.LeftInverse.injective Int32.toInt32_toInt64

theorem playerResultToJson_injective : Function.Injective playerResultToJson := by
  rintro ⟨⟩ ⟨⟩ h
  simp_all [playerResultToJson, toInt64_injective.eq_iff]

theorem userAnswerToJson_injective : Function.Injective userAnswerToJson := by
  rintro ⟨⟨⟩, _, _⟩ ⟨⟨⟩, _, _⟩ h
  simp_all [userAnswerToJson, List.map_inj_right string_injective]

theorem answerToJson_injective :
    Function.Injective fun answer : UInt32 × String =>
      Json.array [unsignedToJson answer.1, .string answer.2] := by
  rintro ⟨⟩ ⟨⟩ h
  simp_all

/-- `time_t` has 64 bits. -/
def UserData.InRange (userData : UserData) : Prop :=
  (Int64.ofInt userData.memberSince).toInt = userData.memberSince

theorem userDataToJson_inj {u v : UserData} (hu : u.InRange) (hv : v.InRange)
    (h : userDataToJson u = userDataToJson v) : u = v := by
  cases u
  cases v
  simp only [userDataToJson, Json.object.injEq, List.cons.injEq, Prod.mk.injEq, Json.string.injEq,
    Json.numberInteger.injEq, true_and, and_true] at h
  obtain ⟨rfl, rfl, rfl, rfl, rfl, rfl, htime⟩ := h
  simp only [UserData.InRange] at hu hv
  rw [htime, hv] at hu
  rw [hu]

def Response.InRange : Response → Prop
  | .getUserData _ userData _ => userData.InRange
  | _ => True

/-- The JSON value of a response determines all its fields. -/
theorem toJson_inj {r r' : Response} (hr : r.InRange) (hr' : r'.InRange)
    (hid : r.responseId = r'.responseId) (h : toJson r = toJson r') : r = r' := by
  -- the ids tell the constructors apart
  cases r <;> cases r' <;> try (simp [Response.responseId] at hid; done)
  case getUserData =>
    simp only [toJson, Json.object.injEq, List.cons.injEq, Prod.mk.injEq, Json.boolean.injEq,
      true_and, and_true] at h
    obtain ⟨rfl, huser, hstatistics⟩ := h
    rw [userDataToJson_inj hr hr' huser, playerStatsToJson_injective hstatistics]
  case getRoomState response response' =>
    cases response
    cases response'
    simp_all [toJson, List.map_inj_right playerToJson_injective]
  all_goals
    simp_all [toJson, messageToJson, statusToJson, playersToJson,
      List.map_inj_right playerToJson_injective, List.map_inj_right roomDataToJson_injective,
      List.map_inj_right playerResultToJson_injective,
      List.map_inj_right userAnswerToJson_injective,
      List.map_inj_right answerToJson_injective, playerStatsToJson_injective.eq_iff]

/-! ## Streams -/

/-- Two responses whose texts, if they are the same, are those of one JSON value. -/
def Distinguishes (dump : Json → List UInt8) (r r' : Response) : Prop :=
  dump (toJson r) = dump (toJson r') → toJson r = toJson r'

theorem serializeResponse_apart {dump : Json → List UInt8} {r r' : Response}
    (hsize : (dump (toJson r)).length < 2 ^ 32) (hsize' : (dump (toJson r')).length < 2 ^ 32)
    (hr : r.InRange) (hr' : r'.InRange) (hdump : Distinguishes dump r r') :
    Apart (serializeResponse dump) r r' := by
  intro s t h
  rw [serializeResponse, serializeResponse, jsonToSizeBytes_eq hsize,
    jsonToSizeBytes_eq hsize'] at h
  obtain ⟨hid, htext, hrest⟩ := frame_inj hsize hsize' h
  exact ⟨toJson_inj hr hr' hid (hdump htext), hrest⟩

/-- An exchange whose parts fit into frames. -/
structure Exchange.Fits (dump : Json → List UInt8) (e : Exchange) : Prop where
  request : e.1.buffer.length < 2 ^ 32
  response : (dump (toJson e.2)).length < 2 ^ 32
  inRange : e.2.InRange

theorem requests_fit {dump : Json → List UInt8} {exchanges : List Exchange}
    {hand : List RequestInfo} (hfits : ∀ e ∈ exchanges, e.Fits dump)
    (hhand : ∀ r ∈ hand, r.buffer.length < 2 ^ 32) :
    ∀ r ∈ exchanges.map Prod.fst ++ hand, r.buffer.length < 2 ^ 32 := by
  intro r hr
  rcases List.mem_append.mp hr with hr | hr
  · obtain ⟨e, he, rfl⟩ := List.mem_map.mp hr
    exact (hfits e he).request
  · exact hhand r hr

/-- The bytes of a connection determine its exchanges, the requests in hand, and where an
unfinished response begins. -/
theorem exchanges_unique {dump : Json → List UInt8} {exchanges exchanges' : List Exchange}
    {hand hand' : List RequestInfo} {part part' : List UInt8}
    (hfits : ∀ e ∈ exchanges, e.Fits dump) (hfits' : ∀ e ∈ exchanges', e.Fits dump)
    (hhand : ∀ r ∈ hand, r.buffer.length < 2 ^ 32) (hhand' : ∀ r ∈ hand', r.buffer.length < 2 ^ 32)
    (hdump : ∀ e ∈ exchanges, ∀ e' ∈ exchanges', Distinguishes dump e.2 e'.2)
    (hpart : ∀ e ∈ exchanges', ¬ serializeResponse dump e.2 <+: part)
    (hpart' : ∀ e ∈ exchanges, ¬ serializeResponse dump e.2 <+: part')
    (hreceived : (exchanges.map Prod.fst ++ hand).flatMap RequestInfo.frame =
      (exchanges'.map Prod.fst ++ hand').flatMap RequestInfo.frame)
    (hsent : (exchanges.flatMap fun e => serializeResponse dump e.2) ++ part =
      (exchanges'.flatMap fun e => serializeResponse dump e.2) ++ part') :
    exchanges = exchanges' ∧ hand = hand' ∧ part = part' := by
  have hrequests : exchanges.map Prod.fst ++ hand = exchanges'.map Prod.fst ++ hand' := by
    have hsize := requests_fit hfits hhand
    have hsize' := requests_fit hfits' hhand'
    have hempty : ∀ r : RequestInfo, r.frame ≠ [] := fun r => List.cons_ne_nil _ _
    have h := flatMap_unique
      (fun r hr r' hr' => RequestInfo.frame_apart (hsize r hr) (hsize' r' hr'))
      (unfinished_nil fun r _ => hempty r) (unfinished_nil fun r _ => hempty r)
      (congrArg (· ++ []) hreceived)
    exact h.1
  have hresponses : exchanges.map Prod.snd = exchanges'.map Prod.snd ∧ part = part' := by
    apply flatMap_unique
    · simp only [List.mem_map]
      rintro _ ⟨e, he, rfl⟩ _ ⟨e', he', rfl⟩
      exact serializeResponse_apart (hfits e he).response (hfits' e' he').response
        (hfits e he).inRange (hfits' e' he').inRange (hdump e he e' he')
    · exact List.forall_mem_map.mpr hpart
    · exact List.forall_mem_map.mpr hpart'
    · simpa [List.flatMap_map] using hsent
  obtain ⟨hresponses, rfl⟩ := hresponses
  have hlength : exchanges.length = exchanges'.length := by
    simpa using congrArg List.length hresponses
  obtain ⟨hfirst, rfl⟩ := List.append_inj hrequests (by simp [hlength])
  have hzip := List.zip_of_prod hfirst hresponses
  exact ⟨hzip.trans (List.zip_of_prod rfl rfl).symm, rfl, rfl⟩

/-- The texts of the responses below. -/
def statusText : Json → List UInt8
  | .object [("status", .boolean true)] => ascii "\x7b\"status\":true\x7d"
  | _ => ascii "\x7b\"message\":\"\"\x7d"

/-- A refused request and a LOGOUT with their responses, one more LOGOUT in hand, and the start
of its response: the streams, and two ways to write the exchanges down. -/
theorem exchanges_unique_logout :
    let refused : Exchange := (⟨.getRoomsRequest, [7]⟩, .error "")
    let answered : Exchange := (⟨.logoutRequest, []⟩, .logout true)
    let exchanges : List Exchange := [refused, answered]
    let hand : List RequestInfo := [⟨.logoutRequest, []⟩]
    (exchanges.map Prod.fst ++ hand).flatMap RequestInfo.frame =
        [4, 0, 0, 0, 1, 7, 3, 0, 0, 0, 0, 3, 0, 0, 0, 0] ∧
      (exchanges.flatMap fun e => serializeResponse statusText e.2) ++ [3, 0] =
        [0, 0, 0, 0, 14] ++ ascii "\x7b\"message\":\"\"\x7d" ++
          [3, 0, 0, 0, 15] ++ ascii "\x7b\"status\":true\x7d" ++ [3, 0] ∧
      exchanges = [answered, refused].reverse ∧ hand = hand.reverse ∧
      ([3, 0] : List UInt8) = [0, 3].reverse := by
  intro refused answered exchanges hand
  have hpair {p : Exchange → Prop} (h₁ : p refused) (h₂ : p answered) : ∀ e ∈ exchanges, p e :=
    List.forall_mem_cons.mpr ⟨h₁, List.forall_mem_singleton.mpr h₂⟩
  have hfits : ∀ e ∈ exchanges, e.Fits statusText :=
    hpair ⟨by decide, by decide, trivial⟩ ⟨by decide, by decide, trivial⟩
  have hpart : ∀ e ∈ exchanges, ¬ serializeResponse statusText e.2 <+: [3, 0] :=
    hpair (by decide) (by decide)
  have hhand : ∀ r ∈ hand, r.buffer.length < 2 ^ 32 := List.forall_mem_singleton.mpr (by decide)
  have hdump : ∀ e ∈ exchanges, ∀ e' ∈ exchanges, Distinguishes statusText e.2 e'.2 := by
    have hrefl : ∀ r, Distinguishes statusText r r := fun _ _ => rfl
    apply hpair
    · exact hpair (hrefl _) fun h => absurd h (by decide)
    · exact hpair (fun h => absurd h (by decide)) (hrefl _)
  refine ⟨by decide, by decide, ?_⟩
  exact exchanges_unique hfits hfits hhand hhand hdump hpart hpart rfl rfl

end TriviaServer
