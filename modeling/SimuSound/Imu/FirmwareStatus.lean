import SimuSound.Imu.FirmwareImage
import SimuSound.Imu.Reporting

/-!
# FirmwareStatus — what a firmware load that returns `Ok` has achieved

A verification read that fails is only counted, and the comparison goes on with what the buffer
holds: the chunk before, or what the stack held.  The result is then that of the last access.
-/

namespace SimuSound.Imu

open Reasoning

/-! ## The verification without the comparison -/

/-- The image, cut as the verification cuts it. -/
def imageChunks : Nat → BitVec 16 → List Byte → List (List Byte)
  | 0, _, _ => []
  | _ + 1, _, [] => []
  | fuel + 1, memaddr, data =>
    let n := chunkSize invMaxSerialRead data.length memaddr
    data.take n :: imageChunks fuel (memaddr + BitVec.ofNat 16 n) (data.drop n)

/-- The accesses of `read_mems` for one burst of `n` bytes. -/
def readChunk (memaddr : BitVec 16) (n : Nat) : Drv (Read (List Byte)) := do
  let result ← selectMemsBank memaddr
  if result ≠ Status.ok then return ⟨result, List.replicate n 0⟩
  let result ← writeByte agb0RegMemStartAddr (loByte memaddr)
  if result ≠ Status.ok then return ⟨result, List.replicate n 0⟩
  let r ← (Prog.perform (BusEvent.read agb0RegMemRW n) : Io (Read (Fin n → Byte)))
  return ⟨r.retval, List.ofFn r.val⟩

/-- What was read, unless the read failed. -/
def Read.outcome (r : Read (List Byte)) : Option (List Byte) :=
  if r.retval = Status.ok then some r.val else none

/-- All verification reads, whatever they return. -/
def readChunks : BitVec 16 → List (List Byte) → Drv (List (Option (List Byte)))
  | _, [] => pure []
  | memaddr, chunk :: chunks => do
    let r ← readChunk memaddr chunk.length
    let rest ← readChunks (memaddr + BitVec.ofNat 16 chunk.length) chunks
    pure (r.outcome :: rest)

/-- Each chunk was read back, or was not read and is what the buffer holds already: the beginning
of the chunk before, or of `stale`. -/
def PassesComparison (stale : List Byte) :
    List (List Byte) → List (Option (List Byte)) → Prop
  | [], [] => True
  | chunk :: chunks, outcome :: outcomes =>
    outcome.getD (stale.take chunk.length) = chunk ∧
      PassesComparison (chunk ++ stale.drop chunk.length) chunks outcomes
  | _, _ => False

section
variable {σ : Type} {env : Env σ BusEvent BusEvent.Resp} {s s' : σ} {tr : BusTrace σ}
  {pdev pdev' : Device}

/-- The status of a chunk accounts for its accesses. -/
theorem readChunk_spec {memaddr : BitVec 16} {n : Nat} {r : Read (List Byte)}
    (hexec : Prog.Exec env ((readChunk memaddr n).run pdev) s tr (r, pdev') s') :
    r.val.length = n ∧ (r.retval = Status.ok ↔ AllOk tr) := by
  obtain ⟨result, pdev₁, s₁, t₁, t₂, rfl, hsel, hrest⟩ := exec_guardM.mp hexec
  rw [allOk_append, ← drv_ok_iff (drvReports_selectMemsBank memaddr)
    (drvSucceeds_selectMemsBank memaddr) hsel]
  split at hrest
  · rename_i hok
    rw [and_iff_right hok]
    obtain ⟨result, pdev₂, s₂, t₃, t₄, rfl, hlift, hlast⟩ := exec_guardM.mp hrest
    obtain ⟨hstart, rfl⟩ := (Prog.exec_lift _ _ _ _ _ _ _ _).mp hlift
    rw [allOk_append, ← (reports_writeByte _ _).ok_iff (succeeds_writeByte _ _) hstart]
    split at hlast
    · rename_i hok
      rw [and_iff_right hok]
      obtain ⟨r₁, pdev₃, s₃, t₅, t₆, rfl, hlift, rfl, hret, rfl⟩ := Prog.exec_bindM.mp hlast
      obtain ⟨hread, rfl⟩ := (Prog.exec_lift _ _ _ _ _ _ _ _).mp hlift
      obtain ⟨-, rfl⟩ := (Prog.exec_perform _ _ _ _ _ _).mp hread
      obtain ⟨rfl, rfl⟩ := Prod.mk.inj hret
      refine ⟨List.length_ofFn, ?_⟩
      rw [List.append_nil, allOk_cons, and_iff_left allOk_nil]
      rfl
    · rename_i hbad
      obtain ⟨-, rfl, -, -⟩ := hlast
      exact ⟨List.length_replicate, iff_of_false hbad fun h => hbad h.1⟩
  · rename_i hbad
    obtain ⟨-, rfl, -, -⟩ := hrest
    exact ⟨List.length_replicate, iff_of_false hbad fun h => hbad h.1⟩

end

theorem readMems_some (reg : BitVec 16) (dest : List Byte) :
    readMems reg (some dest) = selectMemsBank reg >>= fun result =>
      if result ≠ Status.ok then pure ⟨result, some dest⟩
      else liftM (readMemsLoop dest.length reg dest) >>= fun r => pure ⟨r.retval, some r.val⟩ := rfl

/-- The loop of `read_mems` on what one burst can move. -/
theorem readMemsLoop_one {fuel : Nat} {reg : BitVec 16} {b : Byte} {rest : List Byte}
    (hle : (b :: rest).length ≤ 16) :
    readMemsLoop (fuel + 1) reg (b :: rest) =
      writeByte agb0RegMemStartAddr (loByte reg) >>= fun result =>
        if result ≠ Status.ok then pure ⟨result, b :: rest⟩
        else (Prog.perform (.read agb0RegMemRW (b :: rest).length) : Io _) >>= fun r =>
          pure ⟨r.retval, if r.retval = Status.ok then List.ofFn r.val else b :: rest⟩ := by
  rw [readMemsLoop]
  · refine bind_congr fun result => ?_
    generalize hchunk : (b :: rest).take invMaxSerialRead = chunk
    generalize hleft : (b :: rest).drop invMaxSerialRead = left
    obtain rfl : chunk = b :: rest := hchunk.symm.trans (List.take_of_length_le hle)
    obtain rfl : left = [] := hleft.symm.trans (List.drop_eq_nil_of_le hle)
    have hend : ∀ fuel reg, readMemsLoop fuel reg [] = pure ⟨Status.ok, []⟩ := by
      intro fuel reg
      cases fuel <;> rfl
    simp only [hend, executeR, bind_assoc, pure_bind, List.append_nil]
    split
    · rfl
    · refine congrArg _ (funext fun r => ?_)
      by_cases hok : r.retval = Status.ok
      · rw [if_neg (not_not_intro hok), if_pos hok, if_pos hok, hok]
      · rw [if_pos hok, if_neg hok]
  · exact List.cons_ne_nil _ _

/-- `read_mems` of one burst, by its accesses: the bytes read, or what the destination held. -/
theorem readMems_eq_readChunk (memaddr : BitVec 16) {dest : List Byte} (hne : dest ≠ [])
    (hle : dest.length ≤ 16) :
    readMems memaddr (some dest) = (fun r => ⟨r.retval, some (r.outcome.getD dest)⟩) <$>
      readChunk memaddr dest.length := by
  cases dest with
  | nil => exact absurd rfl hne
  | cons b rest =>
    rw [readMems_some, List.length_cons, readMemsLoop_one hle]
    unfold readChunk
    rw [map_bind]
    refine bind_congr fun result => ?_
    by_cases hok : result = Status.ok
    · rw [if_neg (not_not_intro hok), if_neg (not_not_intro hok), liftM_bind, bind_assoc, map_bind]
      refine bind_congr fun result => ?_
      by_cases hok : result = Status.ok
      · rw [if_neg (not_not_intro hok), if_neg (not_not_intro hok), liftM_bind, bind_assoc,
          map_bind]
        refine bind_congr fun r => ?_
        rw [map_pure]
        by_cases hok : r.retval = Status.ok
        · simp [Read.outcome, hok]
        · simp [Read.outcome, hok]
      · rw [if_pos hok, if_pos hok, map_pure]
        simp [Read.outcome, hok]
    · rw [if_pos hok, if_pos hok, map_pure]
      simp [Read.outcome, hok]

/-! ## The verification with the comparison -/

section
variable {σ : Type} {env : Env σ BusEvent BusEvent.Resp} {s s' : σ} {tr : BusTrace σ}
  {pdev pdev' : Device}

/-- A failed read of a chunk was noted. -/
def anyFailed (outcomes : List (Option (List Byte))) : Bool := outcomes.any Option.isNone

/-- One turn of the verification, by the accesses it makes. -/
theorem firmwareVerifyLoop_turn (fuel : Nat) (memaddr : BitVec 16) (b : Byte)
    (data : List Byte) {dataCmp : List Byte} (flag : Bool) (hbuffer : dataCmp.length = 16) :
    firmwareVerifyLoop (fuel + 1) memaddr (b :: data) dataCmp flag =
      let n := chunkSize 16 (b :: data).length memaddr
      readChunk memaddr n >>= fun r =>
        let dataCmp := r.outcome.getD (dataCmp.take n) ++ dataCmp.drop n
        let flag := flag || r.retval ≠ Status.ok
        if dataCmp.take n ≠ (b :: data).take n then pure ⟨Status.dmpVerifyFail, flag⟩
        else firmwareVerifyLoop fuel (memaddr + BitVec.ofNat 16 n) ((b :: data).drop n) dataCmp
          flag := by
  have hpos : 0 < chunkSize 16 (b :: data).length memaddr :=
    chunkSize_pos (by decide) (Nat.succ_pos _)
  have hle : chunkSize 16 (b :: data).length memaddr ≤ 16 := chunkSize_le.2
  rw [firmwareVerifyLoop_cons]
  generalize chunkSize 16 (b :: data).length memaddr = n at hpos hle ⊢
  have hlen : (dataCmp.take n).length = n := by
    rw [List.length_take, hbuffer]
    exact Nat.min_eq_left hle
  have hne : dataCmp.take n ≠ [] := by
    intro hnil
    rw [hnil] at hlen
    exact absurd hlen (Nat.ne_of_lt hpos)
  simp only
  rw [readMems_eq_readChunk memaddr hne (hlen.trans_le hle), hlen, map_eq_pure_bind, bind_assoc]
  refine bind_congr fun r => ?_
  rw [pure_bind]
  rfl

theorem exec_readChunks_cons {memaddr : BitVec 16} {chunk : List Byte} {chunks : List (List Byte)}
    {outcomes : List (Option (List Byte))} :
    Prog.Exec env ((readChunks memaddr (chunk :: chunks)).run pdev) s tr (outcomes, pdev') s' ↔
      ∃ r pdev₁ s₁ t₁ t₂, tr = t₁ ++ t₂ ∧
        Prog.Exec env ((readChunk memaddr chunk.length).run pdev) s t₁ (r, pdev₁) s₁ ∧
        ∃ rest, r.outcome :: rest = outcomes ∧ Prog.Exec env
          ((readChunks (memaddr + BitVec.ofNat 16 chunk.length) chunks).run pdev₁) s₁ t₂
          (rest, pdev') s' := by
  rw [readChunks, Prog.exec_bindM]
  simp only [← map_eq_pure_bind, Prog.exec_map]

theorem anyFailed_cons (r : Read (List Byte)) (rest : List (Option (List Byte))) :
    anyFailed (r.outcome :: rest) = (decide (r.retval ≠ Status.ok) || anyFailed rest) := by
  unfold anyFailed Read.outcome
  by_cases hok : r.retval = Status.ok
  · simp [hok]
  · simp [hok]

/-- A chunk in the buffer, read or left there, is as long as the chunk asked for. -/
theorem length_outcome {r : Read (List Byte)} {dest : List Byte} (h : r.val.length = dest.length) :
    (r.outcome.getD dest).length = dest.length := by
  unfold Read.outcome
  split
  · exact h
  · rfl

/-- At the end of the image nothing has been read. -/
theorem exec_verify_end {memaddr : BitVec 16} {dataCmp : List Byte} {flag flag' : Bool} :
    Prog.Exec env ((pure ⟨Status.ok, flag⟩ : Drv (Read Bool)).run pdev) s tr
        (⟨Status.ok, flag'⟩, pdev') s' ↔
      ∃ outcomes, Prog.Exec env ((readChunks memaddr []).run pdev) s tr (outcomes, pdev') s' ∧
        PassesComparison dataCmp [] outcomes ∧ flag' = (flag || anyFailed outcomes) := by
  constructor
  · rintro ⟨rfl, hret, rfl⟩
    obtain ⟨hr, rfl⟩ := Prod.mk.inj hret
    obtain ⟨-, rfl⟩ := Read.mk.inj hr
    exact ⟨[], ⟨rfl, rfl, rfl⟩, trivial, (Bool.or_false _).symm⟩
  · rintro ⟨outcomes, ⟨rfl, hret, rfl⟩, -, rfl⟩
    obtain ⟨rfl, rfl⟩ := Prod.mk.inj hret
    refine ⟨rfl, ?_, rfl⟩
    rw [show anyFailed [] = false from rfl, Bool.or_false]

/-- The buffer after a read: what is compared, and its length. -/
theorem buffer_after {r : Read (List Byte)} {dataCmp : List Byte} {n : Nat}
    (hdest : (dataCmp.take n).length = n) (hr : r.val.length = n) :
    (r.outcome.getD (dataCmp.take n) ++ dataCmp.drop n).take n =
        r.outcome.getD (dataCmp.take n) ∧
      (r.outcome.getD (dataCmp.take n) ++ dataCmp.drop n).length = dataCmp.length := by
  have hout : (r.outcome.getD (dataCmp.take n)).length = (dataCmp.take n).length :=
    length_outcome (hr.trans hdest.symm)
  refine ⟨List.take_left' (hout.trans hdest), ?_⟩
  rw [List.length_append, hout, ← List.length_append, List.take_append_drop]

/-- The verification ends with `Ok` exactly when all its chunks pass the comparison. -/
theorem exec_firmwareVerifyLoop {fuel : Nat} {memaddr : BitVec 16} {data dataCmp : List Byte}
    {flag flag' : Bool} (hfuel : data.length ≤ fuel) (hbuffer : dataCmp.length = 16) :
    Prog.Exec env ((firmwareVerifyLoop fuel memaddr data dataCmp flag).run pdev) s tr
        (⟨Status.ok, flag'⟩, pdev') s' ↔
      ∃ outcomes, Prog.Exec env ((readChunks memaddr (imageChunks fuel memaddr data)).run pdev) s tr
          (outcomes, pdev') s' ∧
        PassesComparison dataCmp (imageChunks fuel memaddr data) outcomes ∧
        flag' = (flag || anyFailed outcomes) := by
  induction fuel generalizing memaddr data dataCmp flag pdev s tr with
  | zero => exact exec_verify_end
  | succ fuel ih =>
    cases data with
    | nil => exact exec_verify_end
    | cons b data =>
      have hleft := length_drop_chunk memaddr hfuel
      have hle : chunkSize 16 (b :: data).length memaddr ≤ 16 := chunkSize_le.2
      have hn : chunkSize 16 (b :: data).length memaddr ≤ (b :: data).length := chunkSize_le.1
      rw [firmwareVerifyLoop_turn fuel memaddr b data flag hbuffer, Prog.exec_bindM]
      have hchunks : imageChunks (fuel + 1) memaddr (b :: data) =
        (b :: data).take (chunkSize 16 (b :: data).length memaddr) ::
          imageChunks fuel (memaddr + BitVec.ofNat 16 (chunkSize 16 (b :: data).length memaddr))
            ((b :: data).drop (chunkSize 16 (b :: data).length memaddr)) := rfl
      rw [hchunks]
      generalize chunkSize 16 (b :: data).length memaddr = n at hleft hle hn ⊢
      have hlen : ((b :: data).take n).length = n := List.length_take_of_le hn
      have hdest : (dataCmp.take n).length = n := List.length_take_of_le (hle.trans_eq hbuffer.symm)
      simp only [exec_readChunks_cons, hlen]
      constructor
      · rintro ⟨r, pdev₁, s₁, t₁, t₂, htr, hread, hrest⟩
        obtain ⟨htake, hlength⟩ := buffer_after hdest (readChunk_spec hread).1
        simp only [htake] at hrest
        by_cases heq : r.outcome.getD (dataCmp.take n) = (b :: data).take n
        · rw [if_neg (not_not_intro heq)] at hrest
          obtain ⟨rest, hreads, hpass, hflag⟩ := (ih hleft (hlength.trans hbuffer)).mp hrest
          refine ⟨r.outcome :: rest, ⟨r, pdev₁, s₁, t₁, t₂, htr, hread, rest, rfl, hreads⟩, ?_, ?_⟩
          · rw [heq] at hpass
            refine ⟨?_, ?_⟩
            · rwa [hlen]
            · rwa [hlen]
          · rw [hflag, anyFailed_cons, Bool.or_assoc]
        · rw [if_pos heq] at hrest
          have hret := (Prog.exec_pureM.mp hrest).2.1
          exact absurd (Read.mk.inj hret).1 (by decide)
      · rintro ⟨outcomes, ⟨r, pdev₁, s₁, t₁, t₂, htr, hread, rest, rfl, hrest⟩, hpass, hflag⟩
        obtain ⟨htake, hlength⟩ := buffer_after hdest (readChunk_spec hread).1
        obtain ⟨heq, hpass⟩ := hpass
        rw [hlen] at heq hpass
        refine ⟨r, pdev₁, s₁, t₁, t₂, htr, hread, ?_⟩
        simp only [htake]
        rw [if_neg (not_not_intro heq)]
        refine (ih hleft (hlength.trans hbuffer)).mpr ⟨rest, hrest, ?_, ?_⟩
        · rwa [heq]
        · rw [hflag, anyFailed_cons, Bool.or_assoc]

end

/-! ## The whole load -/

/-- What the load does until it verifies. -/
def writeSteps (image : List Byte) (loadAddr : BitVec 16) : Drv Status := do
  let result ← sleep false
  if result ≠ Status.ok then return result
  let result ← lowPower false
  if result ≠ Status.ok then return result
  firmwareWriteLoop image.length loadAddr image

/-- The trace of a load that has got to its end: every access succeeded before the verification
reads, which had these outcomes, and after them. -/
inductive OtherwiseOk {σ : Type} (env : Env σ BusEvent BusEvent.Resp) (image : List Byte)
    (loadAddr : BitVec 16) (pdev : Device) (s s' : σ) :
    BusTrace σ → List (Option (List Byte)) → Device → Prop
  | mk (before reads after : BusTrace σ) (written restored : Status) (s₁ s₂ : σ)
      (pdev₁ pdev₂ : Device) (outcomes : List (Option (List Byte)))
      (hwrite : Prog.Exec env ((writeSteps image loadAddr).run pdev) s before (written, pdev₁) s₁)
      (hbefore : AllOk before)
      (hreads : Prog.Exec env ((readChunks loadAddr (imageChunks image.length loadAddr image)).run
        pdev₁) s₁ reads (outcomes, pdev₂) s₂)
      (hrestore : Prog.Exec env (lowPower true) s₂ after restored s')
      (hafter : AllOk after) :
      OtherwiseOk env image loadAddr pdev s s' (before ++ (reads ++ after)) outcomes pdev₂

/-- Some verification read failed and nothing else did, and what could not be read was in the buffer
already. -/
def Deceived {σ : Type} (env : Env σ BusEvent BusEvent.Resp) (image : List Byte)
    (loadAddr : BitVec 16) (pdev : Device) (s s' : σ) (tr : BusTrace σ) : Prop :=
  ∃ garbage s₀ t outcomes pdev₂, env s (.uninit 16) garbage s₀ ∧
    tr = ⟨s, .uninit 16, garbage⟩ :: t ∧
    OtherwiseOk env image loadAddr pdev s₀ s' t outcomes pdev₂ ∧ none ∈ outcomes ∧
    PassesComparison (List.ofFn garbage) (imageChunks image.length loadAddr image) outcomes

section
variable {σ : Type} {env : Env σ BusEvent BusEvent.Resp} {s s' : σ} {tr : BusTrace σ}
  {pdev pdev' : Device} {image : List Byte} {loadAddr : BitVec 16}

theorem anyFailed_iff (outcomes : List (Option (List Byte))) :
    anyFailed outcomes = true ↔ none ∈ outcomes := by
  unfold anyFailed
  simp only [List.any_eq_true, Option.isNone_iff_eq_none, exists_eq_right]

/-- The outcomes account for the accesses of the reads. -/
theorem readChunks_spec {memaddr : BitVec 16} {chunks : List (List Byte)}
    {outcomes : List (Option (List Byte))}
    (hexec : Prog.Exec env ((readChunks memaddr chunks).run pdev) s tr (outcomes, pdev') s') :
    none ∉ outcomes ↔ AllOk tr := by
  induction chunks generalizing memaddr pdev s tr outcomes with
  | nil =>
    obtain ⟨rfl, rfl, -, -⟩ := Prog.exec_pureM.mp hexec
    exact iff_of_true List.not_mem_nil allOk_nil
  | cons chunk chunks ih =>
    obtain ⟨r, pdev₁, s₁, t₁, t₂, rfl, hread, rest, rfl, hrest⟩ := exec_readChunks_cons.mp hexec
    rw [List.mem_cons, not_or, ih hrest, allOk_append, ← (readChunk_spec hread).2]
    refine and_congr_left fun _ => ?_
    unfold Read.outcome
    split
    · rename_i hok
      exact iff_of_true (by simp) hok
    · rename_i hbad
      exact iff_of_false (by simp) hbad

theorem drvReports_firmwareWriteLoop (fuel : Nat) (memaddr : BitVec 16) (data : List Byte) :
    DrvReports (firmwareWriteLoop fuel memaddr data) := by
  induction fuel generalizing memaddr data with
  | zero => exact drvReports_pure _
  | succ fuel ih =>
    cases data with
    | nil => exact drvReports_pure _
    | cons b data => exact .guard (drvReports_writeMems _ _) fun _ => ih _ _

theorem drvSucceeds_firmwareWriteLoop (fuel : Nat) (memaddr : BitVec 16) (data : List Byte) :
    DrvSucceeds (firmwareWriteLoop fuel memaddr data) := by
  induction fuel generalizing memaddr data with
  | zero => exact fun _ => rfl
  | succ fuel ih =>
    cases data with
    | nil => exact fun _ => rfl
    | cons b data => exact .guard (drvSucceeds_writeMems _ _) (ih _ _)

theorem writeSteps_ok_iff {written : Status}
    (hexec : Prog.Exec env ((writeSteps image loadAddr).run pdev) s tr (written, pdev') s') :
    written = Status.ok ↔ AllOk tr := by
  have hreports (assign : Byte → Byte) : DrvReports (liftM (updateReg 0 agb0RegPwrMgmt1 assign)) :=
    drvReports_lift (reports_updateReg _ _ _)
  have hsucceeds (assign : Byte → Byte) :
      DrvSucceeds (liftM (updateReg 0 agb0RegPwrMgmt1 assign)) :=
    drvSucceeds_lift (succeeds_updateReg _ _ _)
  refine drv_ok_iff ?_ ?_ hexec
  · exact .guard (hreports _) fun _ => .guard (hreports _) fun _ => drvReports_firmwareWriteLoop _ _ _
  · exact .guard (hsucceeds _) <| .guard (hsucceeds _) <| drvSucceeds_firmwareWriteLoop _ _ _

/-- The load returns `Ok` exactly when it gets to its end and every chunk passes the comparison. -/
theorem exec_loadSteps_ok {dataCmp : List Byte} (hbuffer : dataCmp.length = 16) :
    Prog.Exec env ((loadSteps image loadAddr dataCmp).run pdev) s tr (Status.ok, pdev') s' ↔
      ∃ outcomes pdev₂, OtherwiseOk env image loadAddr pdev s s' tr outcomes pdev₂ ∧
        PassesComparison dataCmp (imageChunks image.length loadAddr image) outcomes ∧
        pdev' = if anyFailed outcomes then pdev₂ else { pdev₂ with firmwareLoaded := true } := by
  have hmodify : ∀ {flag : Bool} {pdev₂ : Device} {s₅ : σ} {t₅ : BusTrace σ},
      Prog.Exec env ((do
        modify fun pdev => if flag then pdev else { pdev with firmwareLoaded := true }
        return Status.ok : Drv Status).run pdev₂) s₅ t₅ (Status.ok, pdev') s' ↔
      t₅ = [] ∧ pdev' = (if flag then pdev₂ else { pdev₂ with firmwareLoaded := true }) ∧
        s' = s₅ := by
    intro flag pdev₂ s₅ t₅
    exact ⟨fun ⟨ht, hret, hs⟩ => ⟨ht, (Prod.mk.inj hret).2, hs⟩,
      fun ⟨ht, hpdev, hs⟩ => ⟨ht, by rw [hpdev], hs⟩⟩
  constructor
  · intro hexec
    obtain ⟨s₁, t₁, t₁', rfl, hsleep, hexec⟩ := exec_lift_ok.mp hexec
    obtain ⟨s₂, t₂, t₂', rfl, hpower, hexec⟩ := exec_lift_ok.mp hexec
    obtain ⟨pdev₁, s₃, t₃, t₃', rfl, hwrite, hexec⟩ := exec_guardM_ok.mp hexec
    obtain ⟨⟨retval, flag⟩, pdev₂, s₄, t₄, t₄', rfl, hverify, hexec⟩ := Prog.exec_bindM.mp hexec
    by_cases hok : retval = Status.ok
    · subst hok
      obtain ⟨outcomes, hreads, hpasses, rfl⟩ :=
        (exec_firmwareVerifyLoop (Nat.le_refl _) hbuffer).mp hverify
      simp only [ne_eq, not_true_eq_false, if_false] at hexec
      obtain ⟨s₅, t₅, t₅', rfl, hrestore, hexec⟩ := exec_lift_ok.mp hexec
      obtain ⟨rfl, hpdev, rfl⟩ := hmodify.mp hexec
      have hbefore : Prog.Exec env ((writeSteps image loadAddr).run pdev) s (t₁ ++ (t₂ ++ t₃))
          (Status.ok, pdev₁) s₃ :=
        exec_lift_ok.mpr ⟨s₁, t₁, _, rfl, hsleep, exec_lift_ok.mpr ⟨s₂, t₂, t₃, rfl, hpower, hwrite⟩⟩
      have htr : t₁ ++ (t₂ ++ (t₃ ++ (t₄ ++ (t₅ ++ [])))) = t₁ ++ (t₂ ++ t₃) ++ (t₄ ++ t₅) := by
        simp only [List.append_assoc, List.append_nil]
      rw [htr]
      refine ⟨outcomes, pdev₂, ?_, hpasses, ?_⟩
      · exact .mk _ t₄ t₅ _ _ s₃ s₄ pdev₁ pdev₂ outcomes hbefore
          ((writeSteps_ok_iff hbefore).mp rfl) hreads hrestore
          ((reports_updateReg _ _ _).exec hrestore rfl)
      · rwa [Bool.false_or] at hpdev
    · rw [if_pos hok] at hexec
      exact absurd (Prog.exec_pureM.mp hexec).2.1.symm hok
  · rintro ⟨outcomes, pdev₂, h, hpasses, rfl⟩
    cases h with
    | mk before t₄ t₅ written restored s₃ s₄ pdev₁ _ _ hwrite hbefore hreads hrestore hafter =>
      obtain rfl := (writeSteps_ok_iff hwrite).mpr hbefore
      obtain rfl : restored = Status.ok := (succeeds_updateReg _ _ _).exec hrestore hafter
      obtain ⟨s₁, t₁, t₁', rfl, hsleep, hwrite⟩ := exec_lift_ok.mp hwrite
      obtain ⟨s₂, t₂, t₃, rfl, hpower, hwrite⟩ := exec_lift_ok.mp hwrite
      rw [List.append_assoc, List.append_assoc]
      refine exec_lift_ok.mpr ⟨s₁, t₁, _, rfl, hsleep, ?_⟩
      refine exec_lift_ok.mpr ⟨s₂, t₂, _, rfl, hpower, ?_⟩
      refine exec_guardM_ok.mpr ⟨pdev₁, s₃, t₃, _, rfl, hwrite, ?_⟩
      have hverify : Prog.Exec env ((firmwareVerifyLoop image.length loadAddr image dataCmp
          false).run pdev₁) s₃ t₄ (⟨Status.ok, anyFailed outcomes⟩, pdev₂) s₄ :=
        (exec_firmwareVerifyLoop (Nat.le_refl _) hbuffer).mpr
          ⟨outcomes, hreads, hpasses, (Bool.false_or _).symm⟩
      refine Prog.exec_bindM.mpr ⟨_, pdev₂, s₄, t₄, t₅, rfl, hverify, ?_⟩
      simp only [ne_eq, not_true_eq_false, if_false]
      refine exec_lift_ok.mpr ⟨s', t₅, [], (List.append_nil t₅).symm, hrestore, ?_⟩
      exact hmodify.mpr ⟨rfl, rfl, rfl⟩

theorem OtherwiseOk.allOk_iff {outcomes : List (Option (List Byte))} {pdev₂ : Device}
    (h : OtherwiseOk env image loadAddr pdev s s' tr outcomes pdev₂) :
    AllOk tr ↔ none ∉ outcomes := by
  cases h with
  | mk before reads after written restored s₁ s₂ pdev₁ _ _ hwrite hbefore hreads hrestore hafter =>
    rw [readChunks_spec hreads]
    simp only [allOk_append, hbefore, hafter, true_and, and_true]

end

/-- All reads of `MEM_R_W` but the first fail. -/
def failsLater : Handler Nat BusEvent BusEvent.Resp
  | .read reg _, n =>
    if reg = agb0RegMemRW then (⟨if n = 0 then Status.ok else Status.err, fun _ => 0⟩, n + 1)
    else (⟨Status.ok, fun _ => 0⟩, n)
  | .write _ _, n => (Status.ok, n)
  | .uninit _, n => (fun _ => 0xff, n)
  | .spiOpen _ _, n => ((0 : Int), n)

/-- Two equal chunks, the second of which cannot be read back: the load returns `Ok` and is not
loaded. -/
theorem failed_verification_returns_ok :
    ¬ ∀ (σ : Type) (env : Env σ BusEvent BusEvent.Resp) (image : List Byte)
      (loadAddr : BitVec 16) (pdev pdev' : Device), pdev.dmpFirmwareAvailable = true →
      pdev.firmwareLoaded = false → ∀ (s s' : σ) (tr : BusTrace σ) (retval : Status),
      Prog.Exec env ((invFirmwareLoad image loadAddr).run pdev) s tr (retval, pdev') s' →
      retval = Status.ok → AllOk tr ∧ pdev'.firmwareLoaded = true := by
  intro h
  let pdev : Device := ⟨true, false, 255, 0, 0, 0, 0, 0, 0, 0, 0, 0, 0, 0⟩
  let load := (invFirmwareLoad (List.replicate 32 0) dmpLoadStart).run pdev
  have hloaded := (h Nat failsLater.env (List.replicate 32 0) dmpLoadStart pdev _ rfl rfl 0 _ _ _
    (Prog.exec_run_pair failsLater load 0) (by decide)).2
  exact absurd hloaded (by decide)

/-- A load that returns `Ok` has verified and loaded the image, except when what could not be read
back was in the buffer already. -/
theorem firmware_load_ok_iff {σ : Type} (env : Env σ BusEvent BusEvent.Resp) (image : List Byte)
    (loadAddr : BitVec 16) (pdev pdev' : Device) (havail : pdev.dmpFirmwareAvailable = true)
    (hnot : pdev.firmwareLoaded = false) (s s' : σ) (tr : BusTrace σ) (retval : Status)
    (hexec : Prog.Exec env ((invFirmwareLoad image loadAddr).run pdev) s tr (retval, pdev') s') :
    (retval = Status.ok → AllOk tr ∧ pdev'.firmwareLoaded = true) ↔
      ¬ Deceived env image loadAddr pdev s s' tr := by
  rw [run_invFirmwareLoad image loadAddr havail hnot] at hexec
  constructor
  · rintro hok ⟨garbage, s₀, t, outcomes, pdev₂, hgarbage, rfl, hother, hfailed, hpasses⟩
    -- the answers lead to `Ok`, so they lead to `Ok` in this execution
    have hsteps := (exec_loadSteps_ok List.length_ofFn).mpr ⟨outcomes, pdev₂, hother, hpasses, rfl⟩
    have hret := Prog.Exec.result_unique hexec ⟨garbage, s₀, t, hgarbage, rfl, hsteps⟩
    have hall := (allOk_cons _ _ |>.mp (hok (Prod.mk.inj hret).1).1).2
    exact hother.allOk_iff.mp hall hfailed
  · rintro hnot rfl
    obtain ⟨garbage, s₀, t, hgarbage, rfl, hsteps⟩ := hexec
    obtain ⟨outcomes, pdev₂, hother, hpasses, rfl⟩ := (exec_loadSteps_ok List.length_ofFn).mp hsteps
    have hfine : none ∉ outcomes := fun hfailed =>
      hnot ⟨garbage, s₀, t, outcomes, pdev₂, hgarbage, rfl, hother, hfailed, hpasses⟩
    refine ⟨allOk_cons _ _ |>.mpr ⟨trivial, hother.allOk_iff.mpr hfine⟩, ?_⟩
    rw [if_neg fun h => hfine ((anyFailed_iff outcomes).mp h)]

/-- One chunk on the same device. -/
theorem firmware_load_ok_iff_one :
    let pdev : Device := ⟨true, false, 255, 0, 0, 0, 0, 0, 0, 0, 0, 0, 0, 0⟩
    let load := (invFirmwareLoad (List.replicate 16 0) dmpLoadStart).run pdev
    let tr := Prog.trace failsLater load 0
    let out := Prog.run failsLater load 0
    (out.1.1 = Status.ok → AllOk tr ∧ out.1.2.firmwareLoaded = true) ↔
      ¬ Deceived failsLater.env (List.replicate 16 0) dmpLoadStart pdev 0 out.2 tr := by
  intro pdev load tr out
  exact firmware_load_ok_iff failsLater.env _ _ pdev _ rfl rfl 0 _ _ _
    (Prog.exec_run_pair failsLater load 0)

end SimuSound.Imu
