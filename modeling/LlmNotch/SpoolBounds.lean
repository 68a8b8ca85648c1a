import LlmNotch.SpoolReplay

/-!
# The limits and the order of the spool

A process that writes one frame after the other runs every call of `spool_message` by itself
(`spoolMessage`, which takes the steps of `Call.step` until the call has returned). What a call
leaves of the old frames is `retained` : the part of the listing after the first frames, cut off
until both limits hold. The new frame comes on top of it.

The limit of files holds after every call. The limit of bytes is checked before the frame is
written, so it holds exactly if the frame still fits (`spool_bounded`, `replies_exceed`). The names
of frames are in the order of their times as long as the clock of the writes has twenty digits.
-/

namespace LlmNotch

namespace Ipc

namespace Spool

open Files (Platform)
open Json

/-! ## Names in order -/

section Digits

theorem lt_append {a b : List Char} (x y : List Char) (hlength : a.length = b.length)
    (h : a < b) : a ++ x < b ++ y := by
  induction a generalizing b with
  | nil =>
    obtain rfl := List.length_eq_zero_iff.1 hlength.symm
    exact absurd h (lt_irrefl _)
  | cons c a ih =>
    cases b with
    | nil => cases hlength
    | cons d b =>
      rw [List.cons_append, List.cons_append, List.cons_lt_cons_iff]
      obtain hcd | ⟨hcd, hab⟩ := List.cons_lt_cons_iff.1 h
      · exact .inl hcd
      · exact .inr ⟨hcd, ih (Nat.succ.inj hlength) hab⟩

theorem append_lt (a : List Char) {x y : List Char} (h : x < y) : a ++ x < a ++ y := by
  induction a with
  | nil => exact h
  | cons c a ih => exact List.cons_lt_cons_iff.2 (.inr ⟨rfl, ih⟩)

/-- The value of a digit and the digits after it. -/
theorem value_cons (c : Char) (cs : List Char) : Nat.ofDigitChars 10 (c :: cs) 0 =
    (c.toNat - 48) * 10 ^ cs.length + Nat.ofDigitChars 10 cs 0 := by
  rw [Nat.ofDigitChars_cons, Nat.ofDigitChars_eq_ofDigitChars_zero, Nat.mul_zero, Nat.zero_add,
    Nat.mul_comm]
  rfl

theorem toNat_of_isDigit {c : Char} (h : c.isDigit = true) : 48 ≤ c.toNat ∧ c.toNat ≤ 57 := by
  simp only [Char.isDigit, ge_iff_le, Bool.and_eq_true, decide_eq_true_eq] at h
  exact ⟨UInt32.le_iff_toNat_le.1 h.1, UInt32.le_iff_toNat_le.1 h.2⟩

theorem value_lt {cs : List Char} (h : ∀ c ∈ cs, c.isDigit = true) :
    Nat.ofDigitChars 10 cs 0 < 10 ^ cs.length := by
  induction cs with
  | nil => simp
  | cons c cs ih =>
    obtain ⟨hc, hcs⟩ := List.forall_mem_cons.1 h
    have hvalue := ih hcs
    have hdigit := toNat_of_isDigit hc
    have hle : (c.toNat - 48) * 10 ^ cs.length ≤ 9 * 10 ^ cs.length :=
      Nat.mul_le_mul_right _ (by omega)
    rw [value_cons, List.length_cons, Nat.pow_succ]
    omega

/-- Digits of one length are in the order of their values. -/
theorem lt_of_value_lt {a b : List Char} (hlength : a.length = b.length)
    (ha : ∀ c ∈ a, c.isDigit = true) (hb : ∀ c ∈ b, c.isDigit = true)
    (h : Nat.ofDigitChars 10 a 0 < Nat.ofDigitChars 10 b 0) : a < b := by
  induction a generalizing b with
  | nil =>
    obtain rfl := List.length_eq_zero_iff.1 hlength.symm
    exact absurd h (lt_irrefl _)
  | cons c a ih =>
    cases b with
    | nil => cases hlength
    | cons d b =>
      obtain ⟨hc, has⟩ := List.forall_mem_cons.1 ha
      obtain ⟨hd, hbs⟩ := List.forall_mem_cons.1 hb
      have htail : a.length = b.length := Nat.succ.inj hlength
      have hvalue := value_lt hbs
      have hcdigit := toNat_of_isDigit hc
      have hddigit := toNat_of_isDigit hd
      rw [value_cons, value_cons, htail] at h
      rw [List.cons_lt_cons_iff]
      rcases Nat.lt_trichotomy c.toNat d.toNat with hcd | hcd | hcd
      · exact .inl (UInt32.lt_iff_toNat_lt.2 hcd)
      · have hsame : c = d := Char.toNat_inj.1 hcd
        subst hsame
        exact .inr ⟨rfl, ih htail has hbs (by omega)⟩
      · have hle : (d.toNat - 48) * 10 ^ b.length + 10 ^ b.length ≤
            (c.toNat - 48) * 10 ^ b.length := by
          rw [← Nat.succ_mul]
          exact Nat.mul_le_mul_right _ (by omega)
        omega

theorem value_padded (n : ℕ) : Nat.ofDigitChars 10 (padded n) 0 = n := by
  rw [padded, Nat.ofDigitChars_append, Nat.ofDigitChars_replicate_zero, Nat.mul_zero,
    Nat.ofDigitChars_toDigits (by decide) (by decide)]

theorem isDigit_padded (n : ℕ) : ∀ c ∈ padded n, c.isDigit = true := by
  intro c hc
  obtain hc | hc := List.mem_append.1 hc
  · obtain rfl := List.eq_of_mem_replicate hc
    rfl
  · exact Nat.isDigit_of_mem_toDigits (by decide) (by decide) hc

theorem length_padded {n : ℕ} (h : n < 10 ^ 20) : (padded n).length = 20 := by
  have hlength : (Nat.toDigits 10 n).length ≤ 20 :=
    (Nat.length_toDigits_le_iff (by decide) (by decide)).2 h
  rw [padded, List.length_append, List.length_replicate]
  omega

/-- Twenty digits are in the order of the numbers. -/
theorem padded_lt {m n : ℕ} (hn : n < 10 ^ 20) (h : m < n) : padded m < padded n := by
  refine lt_of_value_lt ?_ (isDigit_padded m) (isDigit_padded n) ?_
  · rw [length_padded (h.trans hn), length_padded hn]
  · rwa [value_padded, value_padded]

end Digits

/-- The calls in the order of the event, the write and the counter. -/
def Call.Before (call other : Call) : Prop :=
  call.occurredAtMs < other.occurredAtMs ∨
    call.occurredAtMs = other.occurredAtMs ∧ (call.tieBreaker < other.tieBreaker ∨
      call.tieBreaker = other.tieBreaker ∧ call.counter < other.counter)

/-- The readings are numbers of their types, and the clock of the writes has twenty digits. -/
structure Call.Dated (call : Call) : Prop where
  nowMs : call.nowMs < 2 ^ 63
  counter : call.counter < 2 ^ 64
  tieBreaker : call.tieBreaker < 10 ^ 20

theorem occurredAtMs_lt {call : Call} (h : call.nowMs < 2 ^ 63) :
    call.occurredAtMs < 10 ^ 20 := by
  have hpayload : ∀ payload : IngestPayload,
      (payload.occurredAtMs.map Int64.toInt).getD call.nowMs < 2 ^ 63 := by
    intro payload
    cases payload.occurredAtMs with
    | none => exact h
    | some ms => exact Int64.toInt_lt ms
  unfold Call.occurredAtMs
  split
  · have := hpayload ‹_›
    omega
  · omega

theorem finalPath_lt_iff {call other : Call} : call.finalPath < other.finalPath ↔
    call.stem ++ ".frame".toList < other.stem ++ ".frame".toList := by
  rw [← toList_finalPath, ← toList_finalPath]
  exact Iff.rfl

theorem finalPath_lt {call other : Call} (hcall : call.Dated) (hother : other.Dated)
    (h : call.Before other) : call.finalPath < other.finalPath := by
  rw [finalPath_lt_iff]
  have htime := occurredAtMs_lt hcall.nowMs
  have htime' := occurredAtMs_lt hother.nowMs
  have hcounter : other.counter < 10 ^ 20 := hother.counter.trans (by decide)
  have hcounter' : call.counter < 10 ^ 20 := hcall.counter.trans (by decide)
  simp only [Call.stem, List.append_assoc]
  obtain hlt | ⟨hsame, hlt | ⟨htie, hlt⟩⟩ := h
  · refine lt_append _ _ ?_ (padded_lt htime' hlt)
    rw [length_padded htime, length_padded htime']
  · rw [hsame]
    refine append_lt _ (append_lt _ (lt_append _ _ ?_ (padded_lt hother.tieBreaker hlt)))
    rw [length_padded hcall.tieBreaker, length_padded hother.tieBreaker]
  · rw [hsame, htie]
    refine append_lt _ (append_lt _ (append_lt _ (append_lt _ (lt_append _ _ ?_
      (padded_lt hcounter hlt)))))
    rw [length_padded hcounter, length_padded hcounter']

/-! ## Calls one after the other -/

/-- A call between two steps. -/
structure Single where
  phase : Phase
  files : Dir
  log : List Removal

def Call.start (files : Dir) : Single :=
  ⟨.listing, files, []⟩

/-- Take steps until the call has returned. -/
def Call.steps (platform : Platform) (call : Call) : ℕ → Single → Single
  | 0, s => s
  | n + 1, s =>
    match call.step platform 0 s.files s.phase with
    | some (phase, files, removed) => call.steps platform n ⟨phase, files, s.log ++ removed⟩
    | none => s

/-- The steps a call may need. -/
def Single.work (s : Single) : ℕ :=
  s.phase.rank + (maxSpoolFiles + 7) * ((listFrames s.files).length + s.phase.pending)

/-- `spool_message`, run by itself. -/
def spoolMessage (platform : Platform) (call : Call) (files : Dir) : Single :=
  call.steps platform (Call.start files).work (Call.start files)

/-- The directory after a process has made these calls. -/
def spoolAll (platform : Platform) (calls : List Call) (files : Dir) : Dir :=
  calls.foldl (fun files call => (spoolMessage platform call files).files) files

/-- The file that was removed. -/
def Removal.name : Removal → Option String
  | .drained name _ => some name
  | .evicted _ listed _ => listed.head?

/-! ## The limits -/

def sizeOf (files : Dir) (name : String) : ℕ :=
  (files.lookup name).elim 0 List.length

/-- The bytes of the frames named. -/
def bytesOf (files : Dir) (names : List String) : ℕ :=
  (names.map (sizeOf files)).sum

/-- Both limits leave room for a frame. -/
def UnderLimits (files : Dir) (names : List String) : Prop :=
  names.length < maxSpoolFiles ∧ bytesOf files names < maxSpoolBytes

instance (files : Dir) (names : List String) : Decidable (UnderLimits files names) :=
  inferInstanceAs (Decidable (_ ∧ _))

theorem underLimits_nil (files : Dir) : UnderLimits files [] := by
  unfold UnderLimits bytesOf
  exact ⟨by decide, by simp [maxSpoolBytes]⟩

/-- What is left of a listing when the first frames were evicted until both limits hold. -/
def retained (files : Dir) : List String → List String
  | [] => []
  | name :: rest => if UnderLimits files (name :: rest) then name :: rest else retained files rest

theorem retained_suffix (files : Dir) (names : List String) : retained files names <:+ names := by
  induction names with
  | nil => exact List.suffix_rfl
  | cons name rest ih =>
    rw [retained]
    split
    · exact List.suffix_rfl
    · exact ih.trans (List.suffix_cons _ _)

theorem retained_eq {files : Dir} {names : List String} (h : UnderLimits files names) :
    retained files names = names := by
  cases names with
  | nil => rfl
  | cons name rest => rw [retained, if_pos h]

theorem retained_under (files : Dir) (names : List String) :
    UnderLimits files (retained files names) := by
  induction names with
  | nil => exact underLimits_nil files
  | cons name rest ih =>
    rw [retained]
    split
    next h => exact h
    next => exact ih

section Run

/-- The call has removed the first frames of the listing and not changed the others. -/
structure Evicting (files current : Dir) (log : List Removal) : Prop where
  listed : log.filterMap Removal.name ++ listFrames current = listFrames files
  same : ∀ name ∈ listFrames current, current.lookup name = files.lookup name
  retained : retained files (listFrames current) = retained files (listFrames files)

/-- The call has made room. -/
structure MadeSpace (files current : Dir) (log : List Removal) : Prop extends
    Evicting files current log where
  under : listFrames current = Spool.retained files (listFrames files)

/-- The call has written its frame. -/
structure WroteFrame (files : Dir) (call : Call) (current : Dir) (log : List Removal) : Prop where
  listed : log.filterMap Removal.name ++ Spool.retained files (listFrames files) =
    listFrames files
  frames : ∀ name, Relay.hasFrameExtension name = true → current.lookup name =
    if name = call.finalPath then some (frameOf call.message)
    else if name ∈ Spool.retained files (listFrames files) then files.lookup name else none

/-- What is known of a call in its phases. -/
def Known (files : Dir) (call : Call) (current : Dir) (log : List Removal) : Phase → Prop
  | .listing => Evicting files current log
  | .sizing listed rest total => Evicting files current log ∧ listed = listFrames current ∧
      listed.length < maxSpoolFiles ∧ total + bytesOf current rest = bytesOf current listed
  | .evicting oldest listed => Evicting files current log ∧ listed = listFrames current ∧
      oldest ∈ listed.head? ∧ ¬UnderLimits files listed
  | .writing => MadeSpace files current log
  | .hardeningTmp | .movingTmp => MadeSpace files current log ∧ Travels call.message ∧
      current.lookup call.tmp = some (frameOf call.message)
  | .hardening => WroteFrame files call current log ∧ Travels call.message
  | .done (.ok path) => WroteFrame files call current log ∧ path = call.finalPath ∧
      Travels call.message
  | .done (.error _) => ¬Travels call.message

variable {platform : Platform} {call : Call} {files current : Dir} {log : List Removal}

theorem known_start (files : Dir) (call : Call) : Known files call files [] .listing :=
  ⟨rfl, fun _ _ => rfl, rfl⟩

theorem Evicting.bytesOf_eq (h : Evicting files current log) :
    bytesOf current (listFrames current) = bytesOf files (listFrames current) := by
  have hsizes : ∀ name ∈ listFrames current, sizeOf current name = sizeOf files name := by
    intro name hname
    rw [sizeOf, sizeOf, h.same name hname]
  rw [bytesOf, bytesOf, List.map_congr_left hsizes]

/-- A limit does not hold : the first frame is next. -/
theorem known_evictFirst (hs : Evicting files current log)
    (hover : ¬UnderLimits files (listFrames current)) :
    Known files call current log (evictFirst (listFrames current)) := by
  cases hlist : listFrames current with
  | nil =>
    rw [hlist] at hover
    exact absurd (underLimits_nil files) hover
  | cons oldest rest =>
    rw [hlist] at hover
    exact ⟨hs, hlist.symm, rfl, hover⟩

/-- The first frame is evicted. -/
theorem listFrames_erase {oldest : String} {rest : List String}
    (hlist : listFrames current = oldest :: rest) :
    listFrames (current.erase oldest) = rest := by
  have hstrict := strict_listFrames current
  rw [hlist] at hstrict
  obtain ⟨hfirst, hrest⟩ := List.pairwise_cons.1 hstrict
  refine (strict_listFrames _).eq_of_mem_iff hrest fun name => ?_
  have hmem : name ∈ listFrames current ↔ name = oldest ∨ name ∈ rest := by
    rw [hlist, List.mem_cons]
  rw [mem_listFrames] at hmem ⊢
  rw [Dict.lookup_erase_ite]
  by_cases hname : name = oldest
  · subst hname
    simpa using fun h => lt_irrefl _ (hfirst name h)
  · simpa [hname] using hmem

theorem Evicting.evict {oldest : String} {rest : List String} {bytes : List UInt8} {i : ℕ}
    (hs : Evicting files current log) (hlist : listFrames current = oldest :: rest)
    (hover : ¬UnderLimits files (oldest :: rest)) :
    Evicting files (current.erase oldest) (log ++ [.evicted i (oldest :: rest) bytes]) := by
  have hlisted := hs.listed
  have hretained := hs.retained
  rw [hlist] at hlisted hretained
  rw [Spool.retained, if_neg hover] at hretained
  refine ⟨?_, ?_, ?_⟩
  · rw [listFrames_erase hlist, ← hlisted]
    simp [Removal.name]
  · intro name hname
    have hlater : name ∈ rest := listFrames_erase hlist ▸ hname
    have hstrict := strict_listFrames current
    rw [hlist] at hstrict
    have hne : name ≠ oldest := ((List.pairwise_cons.1 hstrict).1 name hlater).ne'
    rw [Dict.lookup_erase_ite, if_neg hne]
    exact hs.same name (by simp [hlist, hlater])
  · rw [listFrames_erase hlist, hretained]

/-- A file that is no frame is not listed. -/
theorem listFrames_insert_tmp (bytes : List UInt8) :
    listFrames (current.insert call.tmp bytes) = listFrames current := by
  refine (strict_listFrames _).eq_of_mem_iff (strict_listFrames _) fun name => ?_
  rw [mem_listFrames, mem_listFrames, Dict.lookup_insert_ite]
  by_cases hname : name = call.tmp
  · simp [hname, hasFrameExtension_tmp]
  · simp [hname]

theorem MadeSpace.writeTmp (hs : MadeSpace files current log) (bytes : List UInt8) :
    MadeSpace files (current.insert call.tmp bytes) log := by
  have hlist : listFrames (current.insert call.tmp bytes) = listFrames current :=
    listFrames_insert_tmp bytes
  refine ⟨⟨?_, ?_, ?_⟩, ?_⟩
  · rw [hlist, hs.listed]
  · intro name hname
    rw [hlist] at hname
    have hne : name ≠ call.tmp := by
      rintro rfl
      have htmp := hasFrameExtension_tmp call
      rw [(mem_listFrames.1 hname).2] at htmp
      cases htmp
    rw [Dict.lookup_insert_ite, if_neg hne, hs.same name hname]
  · rw [hlist, hs.retained]
  · rw [hlist, hs.under]

theorem MadeSpace.rename (hs : MadeSpace files current log) :
    WroteFrame files call ((current.erase call.tmp).insert call.finalPath (frameOf call.message))
      log := by
  refine ⟨hs.under ▸ hs.listed, fun name hframe => ?_⟩
  have hne : name ≠ call.tmp := by
    rintro rfl
    rw [hasFrameExtension_tmp] at hframe
    cases hframe
  rw [Dict.lookup_insert_ite, Dict.lookup_erase_ite, if_neg hne, ← hs.under]
  split
  · rfl
  · split
    next hmem => exact hs.same name hmem
    next hnot =>
      rw [mem_listFrames, and_iff_left hframe] at hnot
      exact Option.not_isSome_iff_eq_none.1 hnot

/-- Every step of a call keeps what is known of it. -/
theorem known_step {phase phase' : Phase} {next : Dir} {removed : List Removal} {i : ℕ}
    (hs : Known files call current log phase)
    (h : call.step platform i current phase = some (phase', next, removed)) :
    Known files call next (log ++ removed) phase' := by
  cases phase with
  | listing =>
    simp only [Call.step, Option.some.injEq, Prod.mk.injEq] at h
    obtain ⟨rfl, rfl, rfl⟩ := h
    rw [List.append_nil]
    split
    next hfew => exact ⟨hs, rfl, hfew, Nat.zero_add _⟩
    next hmany => exact known_evictFirst hs fun hunder => hmany hunder.1
  | sizing listed rest total =>
    obtain ⟨hs, rfl, hfew, htotal⟩ := hs
    cases rest with
    | nil =>
      simp only [Call.step, Option.some.injEq, Prod.mk.injEq] at h
      obtain ⟨rfl, rfl, rfl⟩ := h
      have hbytes : total = bytesOf files (listFrames current) := htotal.trans hs.bytesOf_eq
      rw [List.append_nil]
      split
      next hsmall =>
        refine ⟨hs, ?_⟩
        rw [← hs.retained]
        exact (retained_eq ⟨hfew, hbytes ▸ hsmall⟩).symm
      next hlarge => exact known_evictFirst hs fun hunder => hlarge (hbytes ▸ hunder.2)
    | cons name rest =>
      simp only [Call.step, Option.some.injEq, Prod.mk.injEq] at h
      obtain ⟨rfl, rfl, rfl⟩ := h
      rw [List.append_nil]
      refine ⟨hs, rfl, hfew, ?_⟩
      simpa [bytesOf, sizeOf, Nat.add_assoc] using htotal
  | evicting oldest listed =>
    obtain ⟨hs, rfl, hfirst, hover⟩ := hs
    obtain ⟨rest, hlist⟩ : ∃ rest, listFrames current = oldest :: rest := by
      cases hlist : listFrames current with
      | nil => simp [hlist] at hfirst
      | cons first rest =>
        rw [hlist] at hfirst
        cases hfirst
        exact ⟨rest, rfl⟩
    have hthere : (current.lookup oldest).isSome = true :=
      (mem_listFrames.1 (by simp [hlist])).1
    obtain ⟨bytes, hbytes⟩ := Option.isSome_iff_exists.1 hthere
    simp only [Call.step, hbytes, Option.some.injEq, Prod.mk.injEq] at h
    obtain ⟨rfl, rfl, rfl⟩ := h
    rw [hlist] at hover ⊢
    exact hs.evict hlist hover
  | writing =>
    simp only [Call.step] at h
    split at h
    next frame hencode =>
      obtain ⟨rfl, rfl, rfl⟩ := h
      have htravels : Travels call.message := ⟨frame, hencode⟩
      obtain rfl := Except.ok.inj (hencode.symm.trans (encode_of_travels htravels))
      rw [List.append_nil]
      exact ⟨hs.writeTmp _, htravels, AList.lookup_insert _⟩
    next e hencode =>
      obtain ⟨rfl, rfl, rfl⟩ := h
      rintro ⟨frame, hframe⟩
      rw [hencode] at hframe
      cases hframe
  | hardeningTmp =>
    obtain ⟨hs, htravels, htmp⟩ := hs
    have hhardens : hardens platform current call.tmp = true := by
      cases platform <;> simp [hardens, htmp]
    simp only [Call.step, hhardens, if_true, Option.some.injEq, Prod.mk.injEq] at h
    obtain ⟨rfl, rfl, rfl⟩ := h
    rw [List.append_nil]
    exact ⟨hs, htravels, htmp⟩
  | movingTmp =>
    obtain ⟨hs, htravels, htmp⟩ := hs
    simp only [Call.step, htmp, Option.some.injEq, Prod.mk.injEq] at h
    obtain ⟨rfl, rfl, rfl⟩ := h
    rw [List.append_nil]
    exact ⟨hs.rename, htravels⟩
  | hardening =>
    obtain ⟨hs, htravels⟩ := hs
    have hframe := hs.frames call.finalPath (hasFrameExtension_finalPath call)
    rw [if_pos rfl] at hframe
    have hhardens : hardens platform current call.finalPath = true := by
      cases platform <;> simp [hardens, hframe]
    simp only [Call.step, hhardens, if_true, Option.some.injEq, Prod.mk.injEq] at h
    obtain ⟨rfl, rfl, rfl⟩ := h
    rw [List.append_nil]
    exact ⟨hs, rfl, htravels⟩
  | done result => cases h

theorem known_steps (n : ℕ) {s : Single} (hs : Known files call s.files s.log s.phase) :
    Known files call (call.steps platform n s).files (call.steps platform n s).log
      (call.steps platform n s).phase := by
  induction n generalizing s with
  | zero => exact hs
  | succ n ih =>
    rw [Call.steps]
    split
    next phase next removed hstep => exact ih (known_step hs hstep)
    next => exact hs

theorem done_of_step {phase : Phase} {i : ℕ} (h : call.step platform i current phase = none) :
    ∃ result, phase = .done result := by
  cases phase with
  | done result => exact ⟨result, rfl⟩
  | sizing listed rest total => cases rest <;> cases h
  | listing | hardeningTmp | hardening => cases h
  | evicting | writing | movingTmp =>
    simp only [Call.step] at h
    split at h <;> cases h

/-- A call comes to its end. -/
theorem steps_done (n : ℕ) {s : Single} (hlisted : s.phase.Listed) (hwork : s.work ≤ n) :
    ∃ result, (call.steps platform n s).phase = .done result := by
  induction n generalizing s with
  | zero =>
    have hrank : s.phase.rank = 0 := by
      unfold Single.work at hwork
      omega
    obtain ⟨phase, current, log⟩ := s
    cases phase with
    | done result => exact ⟨result, rfl⟩
    | _ => simp [Phase.rank] at hrank
  | succ n ih =>
    rw [Call.steps]
    split
    next phase next removed hstep =>
      refine ih (listed_call hlisted hstep) ?_
      have hless := work_call hlisted hstep
      unfold Single.work at hwork ⊢
      dsimp only
      omega
    next hstep => exact done_of_step hstep

/-- What a call returns. -/
theorem spoolMessage_spec (platform : Platform) (call : Call) (files : Dir) :
    ∃ result, (spoolMessage platform call files).phase = .done result ∧
      Known files call (spoolMessage platform call files).files
        (spoolMessage platform call files).log (.done result) := by
  obtain ⟨result, hdone⟩ :=
    @steps_done platform call (Call.start files).work (Call.start files) trivial le_rfl
  have hknown : Known files call (spoolMessage platform call files).files
      (spoolMessage platform call files).log (spoolMessage platform call files).phase :=
    known_steps _ (known_start files call)
  exact ⟨result, hdone, by rw [← hdone]; exact hknown⟩

theorem lookup_retained {name : String} (h : name ∈ retained files (listFrames files)) :
    (files.lookup name).isSome = true ∧ Relay.hasFrameExtension name = true :=
  mem_listFrames.1 ((retained_suffix files _).mem h)

namespace WroteFrame

section

variable (h : WroteFrame files call current log)

include h

/-- The frames after a call are the retained ones and the new one. -/
theorem perm : (listFrames current).Perm
    (call.finalPath :: (retained files (listFrames files)).erase call.finalPath) := by
  have hnodup : (retained files (listFrames files)).Nodup :=
    (nodup_listFrames files).sublist (retained_suffix files _).sublist
  refine (List.perm_ext_iff_of_nodup (nodup_listFrames current)
    (List.nodup_cons.2 ⟨hnodup.not_mem_erase, hnodup.erase _⟩)).2 fun name => ?_
  rw [mem_listFrames, List.mem_cons]
  by_cases hname : name = call.finalPath
  · subst hname
    rw [h.frames _ (hasFrameExtension_finalPath call), if_pos rfl]
    simp [hasFrameExtension_finalPath]
  · rw [List.mem_erase_of_ne hname, or_iff_right hname]
    constructor
    · rintro ⟨hthere, hframe⟩
      rw [h.frames name hframe, if_neg hname] at hthere
      by_contra hnot
      rw [if_neg hnot] at hthere
      cases hthere
    · intro hretained
      obtain ⟨hthere, hframe⟩ := lookup_retained hretained
      rw [h.frames name hframe, if_neg hname, if_pos hretained]
      exact ⟨hthere, hframe⟩

theorem length_le : (listFrames current).length ≤ maxSpoolFiles := by
  have hfew := (retained_under files (listFrames files)).1
  have hlength := h.perm.length_eq
  have herase : ((retained files (listFrames files)).erase call.finalPath).length ≤
      (retained files (listFrames files)).length := List.erase_sublist.length_le
  rw [List.length_cons] at hlength
  omega

theorem bytes_eq :
    bytesOf current (listFrames current) = (frameOf call.message).length +
      bytesOf files ((retained files (listFrames files)).erase call.finalPath) := by
  have hnodup : (retained files (listFrames files)).Nodup :=
    (nodup_listFrames files).sublist (retained_suffix files _).sublist
  have hnew : sizeOf current call.finalPath = (frameOf call.message).length := by
    rw [sizeOf, h.frames _ (hasFrameExtension_finalPath call), if_pos rfl]
    rfl
  have hold : ∀ name ∈ (retained files (listFrames files)).erase call.finalPath,
      sizeOf current name = sizeOf files name := by
    intro name hname
    have hne : name ≠ call.finalPath := fun heq => hnodup.not_mem_erase (heq ▸ hname)
    have hmem := List.mem_of_mem_erase hname
    rw [sizeOf, sizeOf, h.frames name (lookup_retained hmem).2, if_neg hne, if_pos hmem]
  rw [bytesOf, (h.perm.map _).sum_eq, List.map_cons, List.sum_cons, hnew, bytesOf,
    List.map_congr_left hold]

theorem mem : call.finalPath ∈ listFrames current :=
  h.perm.mem_iff.2 List.mem_cons_self

end

end WroteFrame

/-- The new frame fits below the limit of bytes, on top of what is retained. -/
def HasRoom (files : Dir) (call : Call) : Prop :=
  (frameOf call.message).length +
    bytesOf files ((retained files (listFrames files)).erase call.finalPath) ≤ maxSpoolBytes

end Run

/-- A process makes calls one after the other, from any directory. Every call ends. After one that
has succeeded its frame is there, there are no more frames than the limit, the frames it has
removed were the first ones of the listing, and the limit of bytes holds exactly if the frame
fitted. The listing is in the order of the events, the writes and the counters. -/
theorem spool_bounded (platform : Platform) (files₀ : Dir) (before : List Call) (call : Call) :
    (∃ result,
      (spoolMessage platform call (spoolAll platform before files₀)).phase = .done result) ∧
    (∀ path, (spoolMessage platform call (spoolAll platform before files₀)).phase =
        .done (.ok path) →
      let s := spoolMessage platform call (spoolAll platform before files₀)
      path ∈ listFrames s.files ∧ (listFrames s.files).length ≤ maxSpoolFiles ∧
      s.log.filterMap Removal.name <+: listFrames (spoolAll platform before files₀) ∧
      (bytesOf s.files (listFrames s.files) ≤ maxSpoolBytes ↔
        HasRoom (spoolAll platform before files₀) call) ∧
      (listFrames s.files).Pairwise (· < ·)) ∧
    ∀ c ∈ before ++ [call], ∀ d ∈ before ++ [call], c.Dated → d.Dated → c.Before d →
      c.finalPath < d.finalPath := by
  obtain ⟨result, hdone, hknown⟩ :=
    spoolMessage_spec platform call (spoolAll platform before files₀)
  refine ⟨⟨result, hdone⟩, fun path hok => ?_, fun c _ d _ hc hd h => finalPath_lt hc hd h⟩
  obtain rfl : result = .ok path := Phase.done.inj (hdone.symm.trans hok)
  obtain ⟨hwrote, rfl, -⟩ := hknown
  refine ⟨hwrote.mem, hwrote.length_le, ⟨_, hwrote.listed⟩, ?_, strict_listFrames _⟩
  rw [hwrote.bytes_eq, HasRoom]

/-! ## Replies that fill the spool -/

section Samples

/-- An answer that is all quotes, each of them escaped in the frame. -/
def quotedReply : WireMessage :=
  .decisionReply ipcWireVersion "r1" (String.ofList (List.replicate 8192 '"')) "pending"

/-- The calls of a process that reports it again and again. -/
def replyCall (i : ℕ) : Call :=
  ⟨quotedReply, 1700000000000, i, i,
    String.ofList ("6f1c9e52-5f0e-4b5a-9f43-".toList ++ (padded i).drop 8)⟩

theorem escaped_quotes (n : ℕ) : String.utf8Len ((List.replicate n '"').flatMap escapeChar) =
    2 * n := by
  induction n with
  | zero => rfl
  | succ n ih =>
    have hone : String.utf8Len (escapeChar '"') = 2 := by decide
    rw [List.replicate_succ, List.flatMap_cons, String.utf8Len_append, ih, hone]
    omega

theorem size_quotes (n : ℕ) : size (quote (String.ofList (List.replicate n '"'))) = 2 * n + 2 := by
  have hquote : size "\"" = 1 := by decide
  simp only [size] at hquote
  simp only [quote, size, String.utf8ByteSize_append, String.utf8ByteSize_ofList,
    String.toList_ofList, escaped_quotes, hquote]
  omega

theorem length_quotedReply : (frameOf quotedReply).length = 16477 := by
  have hquotes := size_quotes 8192
  generalize hreply : String.ofList (List.replicate 8192 '"') = reply at hquotes
  have hnames : size (quote "type") = 6 ∧ size (quote "decisionReply") = 15 ∧
      size (quote "v") = 3 ∧ size (quote "requestId") = 11 ∧ size (quote "r1") = 4 ∧
      size (quote "stdoutJson") = 12 ∧ size (quote "deliveryState") = 15 ∧
      size (quote "pending") = 9 ∧ size (intText ipcWireVersion.toNat) = 1 := by decide
  have hsigns : size ":" = 1 ∧ size "," = 1 ∧ size "\x7b" = 1 ∧ size "\x7d" = 1 := by decide
  have htext : size quotedReply.toJson.text = 16473 := by
    simp only [quotedReply, hreply, WireMessage.toJson, envelope, Json.text, Json.textFields,
      List.cons_append, List.nil_append]
    simp only [size, String.utf8ByteSize_append] at hquotes hnames hsigns ⊢
    omega
  rw [length_frameOf, length_body, htext]

theorem travels_quotedReply : Travels quotedReply := by
  refine travels_iff_valid.2 ?_
  have hsize : size (String.ofList (List.replicate 8192 '"')) ≤ maxDecisionContextBytes := by
    rw [size, String.utf8ByteSize_ofList, utf8Len_of_ascii fun c hc => by
      rw [List.eq_of_mem_replicate hc]; rfl, List.length_replicate]
    exact le_rfl
  have hid : validateRequestId "r1" = .ok () := by decide
  exact validateWireMessage_ok_iff.2 ⟨hid, rfl, hsize, by decide, by decide⟩

theorem dated_replyCall {i : ℕ} (h : i < 1000) : (replyCall i).Dated :=
  ⟨by simp [replyCall], by simp only [replyCall]; omega, by simp only [replyCall]; omega⟩

theorem finalPath_replyCall {i j : ℕ} (hj : j < 1000) (h : i < j) :
    (replyCall i).finalPath < (replyCall j).finalPath :=
  finalPath_lt (dated_replyCall (h.trans hj)) (dated_replyCall hj)
    (.inr ⟨rfl, .inl h⟩)

/-- The first calls have all left their frames. -/
def FilledBy (n : ℕ) (files : Dir) : Prop :=
  (listFrames files).Perm ((List.range n).map fun i => (replyCall i).finalPath) ∧
    bytesOf files (listFrames files) = n * 16477

/-- The next one goes on top of them if both limits leave room. -/
theorem filledBy_succ {n : ℕ} {files : Dir} (hfilled : FilledBy n files) (hfew : n < 1000)
    (hsmall : n * 16477 < maxSpoolBytes) :
    (spoolMessage .unix (replyCall n) files).phase = .done (.ok (replyCall n).finalPath) ∧
      FilledBy (n + 1) (spoolMessage .unix (replyCall n) files).files := by
  obtain ⟨hnames, hbytes⟩ := hfilled
  have hunder : UnderLimits files (listFrames files) := by
    refine ⟨?_, hbytes ▸ hsmall⟩
    rw [hnames.length_eq, List.length_map, List.length_range]
    exact hfew
  have hnew : (replyCall n).finalPath ∉ listFrames files := by
    intro hmem
    obtain ⟨i, hi, heq⟩ := List.mem_map.1 (hnames.mem_iff.1 hmem)
    exact (finalPath_replyCall hfew (List.mem_range.1 hi)).ne heq
  obtain ⟨result, hdone, hknown⟩ := spoolMessage_spec .unix (replyCall n) files
  cases result with
  | error e => exact absurd travels_quotedReply hknown
  | ok path =>
    obtain ⟨hwrote, rfl, -⟩ := hknown
    have hperm := hwrote.perm
    have hsum := hwrote.bytes_eq
    rw [retained_eq hunder, List.erase_of_not_mem hnew] at hperm hsum
    refine ⟨hdone, hperm.trans ?_, ?_⟩
    · rw [List.range_succ, List.map_append]
      exact (hnames.cons _).trans (List.perm_append_singleton _ _).symm
    · rw [hsum, hbytes, show (replyCall n).message = quotedReply from rfl, length_quotedReply]
      omega

theorem filledBy_spoolAll {n : ℕ} (h : n ≤ 637) :
    FilledBy n (spoolAll .unix ((List.range n).map replyCall) ∅) := by
  induction n with
  | zero => exact ⟨List.Perm.refl _, rfl⟩
  | succ n ih =>
    have hsmall : n * 16477 < maxSpoolBytes := by
      simp only [maxSpoolBytes]
      omega
    have hnext := (filledBy_succ (ih (by omega)) (by omega) hsmall).2
    rw [List.range_succ, List.map_append, spoolAll, List.foldl_append]
    exact hnext

/-- A process starts with an empty spool and reports the answer 637 times. All calls succeed, and
the frames have more bytes than the limit. -/
theorem replies_exceed :
    (spoolMessage .unix (replyCall 636) (spoolAll .unix ((List.range 636).map replyCall) ∅)).phase =
      .done (.ok (replyCall 636).finalPath) ∧
    maxSpoolBytes < bytesOf
      (spoolMessage .unix (replyCall 636)
        (spoolAll .unix ((List.range 636).map replyCall) ∅)).files
      (listFrames (spoolMessage .unix (replyCall 636)
        (spoolAll .unix ((List.range 636).map replyCall) ∅)).files) := by
  have hsmall : 636 * 16477 < maxSpoolBytes := by decide
  have hfilled := filledBy_spoolAll (show 636 ≤ 637 by decide)
  obtain ⟨hdone, -, hbytes⟩ := filledBy_succ hfilled (by decide) hsmall
  refine ⟨hdone, ?_⟩
  rw [hbytes]
  decide

end Samples

end Spool

end Ipc

end LlmNotch
