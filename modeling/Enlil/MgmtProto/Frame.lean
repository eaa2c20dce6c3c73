import Enlil.Lib.Le

/-! # The framing of management messages: model of the codec of `enlil-mgmt-proto` -/

namespace Enlil.MgmtProto
open List

inductive ProtocolError (ε : Type) where
  | frameTooLarge (len : ℕ)
  | json (e : ε)

def maxFrame : ℕ := 16*1024*1024

/-- A payload as `encode` frames it: its length and its bytes. -/
def frame (payload : List UInt8) : List UInt8 := Le.bytes 4 payload.length ++ payload

def encode {α ε : Type} (toVec : α → Except ε (List UInt8)) (msg : α) :
    Except (ProtocolError ε) (List UInt8) :=
  match toVec msg with
  | .error e => .error (.json e)
  | .ok json => if 2^32 ≤ json.length then .error (.frameTooLarge json.length) else .ok (frame json)

structure FrameDecoder where
  buf : List UInt8

namespace FrameDecoder
variable {α ε : Type}

def new : FrameDecoder := ⟨[]⟩

def push (d : FrameDecoder) (data : List UInt8) : FrameDecoder := ⟨d.buf ++ data⟩

def decode (fromSlice : List UInt8 → Except ε α) (d : FrameDecoder) :
    Except (ProtocolError ε) (Option α) × FrameDecoder :=
  if d.buf.length < 4 then (.ok none,d)
  else
    let len := Le.toNat (d.buf.take 4)
    if maxFrame < len then (.error (.frameTooLarge len),d)
    else if d.buf.length < 4+len then (.ok none,d)
    else
      let rest := d.buf.drop 4
      -- The frame is drained before its payload is looked at.
      match fromSlice (rest.take len) with
      | .ok msg => (.ok (some msg),⟨rest.drop len⟩)
      | .error e => (.error (.json e),⟨rest.drop len⟩)

inductive Head where
  | wait
  | tooLarge (len : ℕ)
  | frame (payload rest : List UInt8)

def head (buf : List UInt8) : Head :=
  let len := Le.toNat (buf.take 4)
  if buf.length < 4 then .wait
  else if maxFrame < len then .tooLarge len
  else if buf.length < 4+len then .wait
  else .frame ((buf.drop 4).take len) ((buf.drop 4).drop len)

variable {fromSlice : List UInt8 → Except ε α} {d d' : FrameDecoder}
  {buf more payload rest : List UInt8} {len : ℕ}

lemma decode_eq (fromSlice : List UInt8 → Except ε α) (d : FrameDecoder) :
    decode fromSlice d = match head d.buf with
      | .wait => (.ok none,d)
      | .tooLarge len => (.error (.frameTooLarge len),d)
      | .frame payload rest =>
        match fromSlice payload with
        | .ok msg => (.ok (some msg),⟨rest⟩)
        | .error e => (.error (.json e),⟨rest⟩) := by
  unfold decode head
  simp only
  split
  · rfl
  split
  · rfl
  split
  · rfl
  · rfl

lemma head_eq_frame : head buf = .frame payload rest ↔
    ∃ header, buf = header ++ (payload ++ rest) ∧ header.length = 4 ∧
      payload.length = Le.toNat header ∧ payload.length ≤ maxFrame := by
  unfold head
  simp only
  constructor
  · intro h
    split at h
    · cases h
    split at h
    · cases h
    split at h
    · cases h
    next hfour hmax hall =>
    cases h
    refine ⟨buf.take 4,?_,?_,?_,?_⟩
    · rw [take_append_drop,take_append_drop]
    · rw [length_take]
      omega
    · rw [length_take,length_drop]
      omega
    · rw [length_take,length_drop]
      omega
  · rintro ⟨header,rfl,hfour,hlen,hmax⟩
    rw [take_left' hfour,drop_left' hfour,← hlen,take_left' rfl,
      drop_left' rfl,length_append,length_append,if_neg (by omega),
      if_neg (by omega),if_neg (by omega)]

lemma head_eq_tooLarge : head buf = .tooLarge len ↔
    4 ≤ buf.length ∧ maxFrame < len ∧ len = Le.toNat (buf.take 4) := by
  unfold head
  simp only
  constructor
  · intro h
    split at h
    · cases h
    split at h
    · cases h
      exact ⟨by omega,by assumption,rfl⟩
    split at h
    · cases h
    · cases h
  · rintro ⟨hfour,hmax,rfl⟩
    rw [if_neg (by omega),if_pos hmax]

lemma head_frame_append (h : head buf = .frame payload rest) :
    head (buf ++ more) = .frame payload (rest ++ more) := by
  obtain ⟨header,rfl,hheader⟩ := head_eq_frame.mp h
  exact head_eq_frame.mpr ⟨header,by simp only [List.append_assoc],hheader⟩

lemma head_tooLarge_append (h : head buf = .tooLarge len) :
    head (buf ++ more) = .tooLarge len := by
  obtain ⟨hfour,hmax,hlen⟩ := head_eq_tooLarge.mp h
  refine head_eq_tooLarge.mpr ⟨?_,hmax,?_⟩
  · rw [length_append]
    omega
  · rw [take_append_of_le_length hfour,hlen]

lemma length_of_head (h : head buf = .frame payload rest) : rest.length < buf.length := by
  obtain ⟨header,rfl,hfour,-⟩ := head_eq_frame.mp h
  rw [length_append,length_append]
  omega

lemma length_of_decode {x : Except (ProtocolError ε) (Option α)}
    (h : decode fromSlice d = (x,d')) (hx : x ≠ .ok none)
    (hlarge : ∀ len, x ≠ .error (.frameTooLarge len)) : d'.buf.length < d.buf.length := by
  rw [decode_eq] at h
  split at h
  · cases h
    exact absurd rfl hx
  · cases h
    exact absurd rfl (hlarge _)
  · next hhead =>
    split at h
    · cases h
      exact length_of_head hhead
    · cases h
      exact length_of_head hhead

/-- Decode until no message is complete: the messages and JSON errors, the length in a header that
was too large, and the decoder. -/
def drain (fromSlice : List UInt8 → Except ε α) (d : FrameDecoder) :
    List (Except ε α) × Option ℕ × FrameDecoder :=
  match _h : decode fromSlice d with
  | (.ok none,d') => ([],none,d')
  | (.error (.frameTooLarge len),d') => ([],some len,d')
  | (.ok (some msg),d') =>
    let r := drain fromSlice d'
    (.ok msg :: r.1,r.2)
  | (.error (.json e),d') =>
    let r := drain fromSlice d'
    (.error e :: r.1,r.2)
termination_by d.buf.length
decreasing_by
  · exact length_of_decode _h (by simp) (by simp)
  · exact length_of_decode _h (by simp) (by simp)

def run (fromSlice : List UInt8 → Except ε α) (d : FrameDecoder) :
    List (List UInt8) → List (Except ε α) × Option ℕ
  | [] => ([],none)
  | data :: pushes =>
    match drain fromSlice (d.push data) with
    | (items,some len,_) => (items,some len)
    | (items,none,d') =>
      let r := run fromSlice d' pushes
      (items ++ r.1,r.2)

lemma drain_eq (fromSlice : List UInt8 → Except ε α) (d : FrameDecoder) : drain fromSlice d =
    match decode fromSlice d with
    | (.ok none,d') => ([],none,d')
    | (.error (.frameTooLarge len),d') => ([],some len,d')
    | (.ok (some msg),d') => (.ok msg :: (drain fromSlice d').1,(drain fromSlice d').2)
    | (.error (.json e),d') => (.error e :: (drain fromSlice d').1,(drain fromSlice d').2) := by
  rw [drain]
  split
  all_goals next heq => rw [heq]

lemma drain_wait (h : head d.buf = .wait) : drain fromSlice d = ([],none,d) := by
  rw [drain_eq,decode_eq,h]

lemma drain_tooLarge (h : head d.buf = .tooLarge len) :
    drain fromSlice d = ([],some len,d) := by
  rw [drain_eq,decode_eq,h]

lemma drain_frame (h : head d.buf = .frame payload rest) : drain fromSlice d =
      (fromSlice payload :: (drain fromSlice ⟨rest⟩).1,(drain fromSlice ⟨rest⟩).2) := by
  rw [drain_eq,decode_eq,h]
  cases hjson : fromSlice payload with
  | ok msg => simp only [hjson]
  | error e => simp only [hjson]

variable {items : List (Except ε α)}

/-- A decoder that was drained waits, and a run may stop between two pushes. -/
lemma drain_push {e : Option ℕ} (h : drain fromSlice d = (items,e,d')) (more : List UInt8) :
    (e = none → head d'.buf = .wait) ∧ drain fromSlice (d.push more) =
      if e = none then (items ++ (drain fromSlice (d'.push more)).1,(drain fromSlice (d'.push more)).2)
      else (items,e,d'.push more) := by
  induction hn : d.buf.length using Nat.strongRecOn generalizing d items with
  | ind n ih =>
    cases hhead : head d.buf with
    | wait =>
      rw [drain_wait hhead] at h
      cases h
      exact ⟨fun _ => hhead,rfl⟩
    | tooLarge len =>
      rw [drain_tooLarge hhead] at h
      cases h
      exact ⟨nofun,drain_tooLarge (head_tooLarge_append hhead)⟩
    | frame payload rest =>
      rw [drain_frame hhead] at h
      obtain ⟨hitems,hrest⟩ := Prod.mk.inj h
      obtain ⟨hwait,hpush⟩ := ih rest.length (hn ▸ length_of_head hhead)
        (show drain fromSlice ⟨rest⟩ = (_,e,d') from Prod.ext rfl hrest) rfl
      refine ⟨hwait,?_⟩
      have hframe : head (d.push more).buf = .frame payload (rest ++ more) :=
        head_frame_append hhead
      rw [drain_frame hframe,← hitems,show drain fromSlice ⟨rest ++ more⟩ = _ from hpush]
      cases e <;> rfl

lemma run_eq (hd : head d.buf = .wait) (pushes : List (List UInt8)) :
    run fromSlice d pushes = ((drain fromSlice (d.push pushes.flatten)).1,
      (drain fromSlice (d.push pushes.flatten)).2.1) := by
  induction pushes generalizing d with
  | nil =>
    have hempty : d.push [].flatten = d := congrArg mk (append_nil d.buf)
    rw [run,hempty,drain_wait hd]
  | cons data pushes ih =>
    have hsplit : d.push (data :: pushes).flatten = (d.push data).push pushes.flatten :=
      congrArg mk (List.append_assoc _ _ _).symm
    rw [run,hsplit]
    rcases hdrain : drain fromSlice (d.push data) with ⟨items,stop,d'⟩
    cases stop with
    | some len =>
      rw [(drain_push hdrain _).2,if_neg nofun]
    | none =>
      obtain ⟨hwait,hpush⟩ := drain_push hdrain pushes.flatten
      simp only
      rw [hpush,if_pos rfl,ih (hwait rfl)]

lemma head_frame (hmax : payload.length ≤ maxFrame) (rest : List UInt8) :
    head (frame payload ++ rest) = .frame payload rest := by
  refine head_eq_frame.mpr ⟨Le.bytes 4 payload.length,?_,Le.length_bytes 4 _,?_,hmax⟩
  · rw [frame,List.append_assoc]
  · rw [Le.toNat_bytes,Nat.mod_eq_of_lt]
    unfold maxFrame at hmax
    omega

lemma drain_frames {payloads : List (List UInt8)} (hmax : ∀ p ∈ payloads, p.length ≤ maxFrame)
    (tail : List UInt8) :
    drain fromSlice ⟨payloads.flatMap frame ++ tail⟩ =
      (payloads.map fromSlice ++ (drain fromSlice ⟨tail⟩).1,(drain fromSlice ⟨tail⟩).2) := by
  induction payloads with
  | nil => rfl
  | cons payload payloads ih =>
    obtain ⟨hpayload,hrest⟩ := forall_mem_cons.mp hmax
    rw [flatMap_cons,List.append_assoc,drain_frame (head_frame hpayload _),ih hrest]
    rfl

/-- Two ways of cutting a stream give the same messages and errors up to the first header that is
too large. -/
theorem run_cut_independent (fromSlice : List UInt8 → Except ε α) :
    (∀ pushes pushes' : List (List UInt8), pushes.flatten = pushes'.flatten →
      run fromSlice new pushes = run fromSlice new pushes') ∧
    ∀ (payloads pushes : List (List UInt8)) (tail : List UInt8),
      (∀ p ∈ payloads, p.length ≤ maxFrame) →
      pushes.flatten = payloads.flatMap frame ++ tail →
      run fromSlice new pushes = (payloads.map fromSlice ++ (run fromSlice new [tail]).1,
        (run fromSlice new [tail]).2) := by
  have hnew : head new.buf = .wait := rfl
  constructor
  · intro pushes pushes' h
    rw [run_eq hnew,run_eq hnew,h]
  · intro payloads pushes tail hmax h
    have hframes : drain fromSlice (new.push pushes.flatten) =
        (payloads.map fromSlice ++ (drain fromSlice ⟨tail⟩).1,(drain fromSlice ⟨tail⟩).2) := by
      rw [h]
      exact drain_frames hmax tail
    have htail : new.push [tail].flatten = ⟨tail⟩ := congrArg mk (append_nil tail)
    rw [run_eq hnew,run_eq hnew,hframes,htail]

/-- A stream of a bad and a good frame, cut inside the first header. -/
theorem run_bad_then_good :
    let fromSlice : List UInt8 → Except Unit ℕ := fun payload =>
      if payload = [0x31] then .ok 1 else .error ()
    run fromSlice new [[1,0],[0,0,0x78,1],[0,0,0,0x31,9]] = ([.error (),.ok 1],none) := by
  intro fromSlice
  have h := (run_cut_independent fromSlice).2 [[0x78],[0x31]]
    [[1,0],[0,0,0x78,1],[0,0,0,0x31,9]] [9] (by decide) (by decide)
  have htail : run fromSlice new [[9]] = ([],none) := by
    rw [run_eq rfl,drain_wait rfl]
  rw [h,htail]
  rfl

lemma encode_eq_ok {toVec : α → Except ε (List UInt8)} {msg : α} {bytes : List UInt8} :
    encode toVec msg = .ok bytes ↔
      ∃ json, toVec msg = .ok json ∧ json.length < 2^32 ∧ bytes = frame json := by
  unfold encode
  cases hjson : toVec msg with
  | error e => simp
  | ok json =>
    simp only [Except.ok.injEq,exists_eq_left']
    split
    · simp
      omega
    · simp [eq_comm]
      omega

lemma head_frame_tooLarge (hmax : maxFrame < payload.length) (hlen : payload.length < 2^32)
    (rest : List UInt8) : head (frame payload ++ rest) = .tooLarge payload.length := by
  have htake : (frame payload ++ rest).take 4 = Le.bytes 4 payload.length := by
    rw [frame,List.append_assoc,take_left' (Le.length_bytes 4 _)]
  refine head_eq_tooLarge.mpr ⟨?_,hmax,?_⟩
  · rw [frame,length_append,length_append,Le.length_bytes]
    omega
  · rw [htake,Le.toNat_bytes]
    exact (Nat.mod_eq_of_lt hlen).symm

/-- Both ends agree on the messages whose JSON text is not longer than the decoder allows: the
encoded frames decode to the messages exactly if there is no longer one among them. -/
theorem drain_encoded_iff (toVec : α → Except ε (List UInt8)) (fromSlice : List UInt8 → Except ε α)
    (hserde : ∀ msg json, toVec msg = .ok json → fromSlice json = .ok msg)
    {msgs : List α} {frames : List (List UInt8)}
    (henc : List.Forall₂ (fun msg bytes => encode toVec msg = .ok bytes) msgs frames) :
    drain fromSlice (new.push frames.flatten) = (msgs.map .ok,none,new) ↔
      ∀ msg ∈ msgs, ∀ json, toVec msg = .ok json → json.length ≤ 16*1024*1024 := by
  show drain fromSlice ⟨frames.flatten⟩ = _ ↔ _
  induction henc with
  | nil =>
    rw [flatten_nil,drain_wait rfl]
    simp [new]
  | @cons msg bytes msgs frames hmsg _ ih =>
    obtain ⟨json,hjson,hlen,rfl⟩ := encode_eq_ok.mp hmsg
    rw [flatten_cons,forall_mem_cons,← ih]
    by_cases hmax : json.length ≤ maxFrame
    · have hhead : ∀ json', toVec msg = .ok json' → json'.length ≤ 16*1024*1024 := by
        intro json' hjson'
        cases hjson.symm.trans hjson'
        exact hmax
      rw [drain_frame (head_frame hmax _),hserde msg json hjson,map_cons,Prod.mk.injEq,
        List.cons.injEq,eq_self,true_and,← Prod.mk.injEq]
      exact ⟨fun h => ⟨hhead,h⟩,fun h => h.2⟩
    · rw [drain_tooLarge (head_frame_tooLarge (by omega) hlen _)]
      exact ⟨fun h => (nomatch congrArg Prod.fst h),fun h => absurd (h.1 json hjson) hmax⟩

/-- Two messages of one byte. -/
theorem drain_encoded_two :
    drain (fun json => (.ok json : Except Unit (List UInt8)))
      (new.push [frame [0x31],frame [0x32]].flatten) = ([.ok [0x31],.ok [0x32]],none,new) := by
  have henc : List.Forall₂ (fun msg bytes => encode (ε := Unit) .ok msg = .ok bytes)
      [[0x31],[0x32]] [frame [0x31],frame [0x32]] := .cons rfl (.cons rfl .nil)
  refine (drain_encoded_iff .ok _ ?_ henc).mpr ?_
  · rintro msg json ⟨⟩
    rfl
  · rintro msg hmsg json ⟨⟩
    have hall : ∀ m ∈ [[0x31],[(0x32 : UInt8)]], m.length ≤ 16*1024*1024 := by decide
    exact hall msg hmsg

lemma decode_frame_tooLarge (hmax : maxFrame < payload.length) (hlen : payload.length < 2^32) :
    decode fromSlice (new.push (frame payload)) =
      (.error (.frameTooLarge payload.length),new.push (frame payload)) := by
  have hhead := head_frame_tooLarge hmax hlen []
  rw [append_nil] at hhead
  rw [decode_eq,show head (new.push (frame payload)).buf = _ from hhead]

lemma encode_replicate_not_decoded {n : ℕ} (hmax : maxFrame < n) (hn : n < 2^32) :
    encode (ε := Unit) (fun _ : Unit => .ok (replicate n 0x20)) () =
        .ok (frame (replicate n 0x20)) ∧
      decode (fun _ => (.ok () : Except Unit Unit)) (new.push (frame (replicate n 0x20))) =
        (.error (.frameTooLarge n),new.push (frame (replicate n 0x20))) := by
  have hlen : (replicate n (0x20 : UInt8)).length = n := length_replicate
  refine ⟨encode_eq_ok.mpr ⟨_,rfl,by rwa [hlen],rfl⟩,?_⟩
  rw [decode_frame_tooLarge (by rwa [hlen]) (by rwa [hlen]),hlen]

/-- A message whose JSON text is one byte longer than the decoder allows is encoded, and
decoding its frame is an error that leaves the frame in the buffer. -/
theorem encode_not_decoded :
    encode (ε := Unit) (fun _ : Unit => .ok (replicate (16*1024*1024+1) 0x20)) () =
        .ok (frame (replicate (16*1024*1024+1) 0x20)) ∧
      decode (fun _ => (.ok () : Except Unit Unit))
          (new.push (frame (replicate (16*1024*1024+1) 0x20))) =
        (.error (.frameTooLarge (16*1024*1024+1)),
          new.push (frame (replicate (16*1024*1024+1) 0x20))) :=
  encode_replicate_not_decoded (by decide) (by decide)

end FrameDecoder
end Enlil.MgmtProto
