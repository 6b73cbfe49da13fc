import MatrixOS.KeyboardQueue
import MatrixOS.LinePrefix
import MatrixOS.SequentialReads

namespace MatrixOS

open ByteMemory LinePrefix

/-!
# Reading the console

A read of the console takes one line from the queue of the keyboard, or as much
of it as there is room for, and loses nothing.
-/

/-! ## The loop -/

/-- A text has been moved from the keyboard to a buffer. -/
structure Delivered
    (before : VfsState) (buf : Nat) (text : List UInt8) (after : VfsState) :
    Prop where
  bytes : bufferBytes after.mem buf text.length = text
  rest : before.keyboard.unread = text ++ after.keyboard.unread
  sound : after.keyboard.Sound

section Loop

variable {state : VfsState} {buf : Nat}

theorem bufferBytes_succ (mem : Memory) (buf count : Nat) :
    bufferBytes mem buf (count + 1) =
      mem (wrap32 buf) :: bufferBytes mem (buf + 1) count := by
  simp [bufferBytes, List.range_succ_eq_map, Function.comp_def, Nat.add_assoc,
    Nat.add_comm 1]

/-- A round of the loop without a character. -/
theorem consoleRead_nil
    (sound : state.keyboard.Sound)
    (queue : state.keyboard.unread = [])
    (room readCount : Nat) :
    consoleRead buf (room + 1) readCount state = (readCount, state) := by
  rw [consoleRead, sound.inRange.getChar_of_nil queue]
  rfl

/-- A round of the loop with a character. -/
theorem consoleRead_cons
    (sound : state.keyboard.Sound)
    {c : UInt8} {rest : List UInt8}
    (queue : state.keyboard.unread = c :: rest)
    (buf room readCount : Nat) :
    ∃ stored : VfsState, stored.keyboard.Sound ∧
      stored.keyboard.unread = rest ∧
      stored.mem (wrap32 (buf + readCount)) = c ∧
      consoleRead buf (room + 1) readCount state =
        if c = 10 then (readCount + 1, stored)
        else consoleRead buf room (readCount + 1) stored := by
  obtain ⟨next, taken, left⟩ := sound.inRange.getChar_of_cons queue
  have isChar : c ≠ 0 := sound.unread_ne_zero (by simp [queue])
  have nextSound := sound.getChar
  rw [taken] at nextSound
  refine ⟨(state.withKeyboard next).withMem
    (Function.update state.mem (wrap32 (buf + readCount)) c),
    nextSound, left, Function.update_self .., ?_⟩
  simp only [consoleRead, taken, if_pos isChar]
  rfl

/-- The place of a character is not written again. -/
theorem consoleRead_mem
    {room : Nat}
    (fits : room < 2 ^ 32)
    (buf readCount : Nat)
    (state : VfsState) :
    (consoleRead buf room (readCount + 1) state).2.mem
        (wrap32 (buf + readCount)) =
      state.mem (wrap32 (buf + readCount)) := by
  obtain ⟨keyboard, mem, writes, result⟩ :=
    consoleRead_effect buf room (readCount + 1) state
  rw [result]
  refine writes _ (wrap32_lt _) fun i below => ?_
  simp only [wrap32]
  omega

/-- The loop takes the longest line that there is room for. -/
theorem consoleRead_delivered
    (sound : state.keyboard.Sound)
    {room : Nat}
    (fits : room < 2 ^ 32)
    (readCount : Nat) :
    (consoleRead buf room readCount state).1 =
        readCount + (takeLine 10 room state.keyboard.unread).length ∧
      Delivered state (buf + readCount) (takeLine 10 room state.keyboard.unread)
        (consoleRead buf room readCount state).2 := by
  induction room generalizing readCount state with
  | zero =>
      exact ⟨rfl, rfl, rfl, sound⟩
  | succ room inductionHypothesis =>
      cases queue : state.keyboard.unread with
      | nil =>
          rw [consoleRead_nil sound queue]
          exact ⟨rfl, rfl, rfl, sound⟩
      | cons c rest =>
          obtain ⟨stored, storedSound, left, isByte, round⟩ :=
            consoleRead_cons sound queue buf room readCount
          rw [round, takeLine]
          split
          · refine ⟨rfl, congrArg (fun byte => [byte]) isByte, ?_, storedSound⟩
            rw [queue, left]
            rfl
          · obtain ⟨count, delivered⟩ :=
              inductionHypothesis storedSound (by omega) (readCount + 1)
            have others := delivered.rest
            rw [left] at count delivered
            refine ⟨by rw [count, List.length_cons]; omega, ?_, ?_,
              delivered.sound⟩
            · rw [List.length_cons, bufferBytes_succ, consoleRead_mem (by omega),
                isByte]
              exact congrArg _ delivered.bytes
            · rw [left] at others
              rw [queue, List.cons_append, ← others]

end Loop

/-! ## Descriptors of the console -/

/-- The descriptor is open on the device. -/
structure OnDevice (state : VfsState) (fd : Nat) (device : Int) : Prop where
  openOn : state.OpenOn .devfsOps fd
  device : devfsDeviceOf (state.openFiles fd).privateData state = device

section Device

variable {state next : VfsState} {fd : Nat} {device : Int}

theorem OnDevice.of_sameTables
    (onDevice : OnDevice state fd device)
    (same : SameTables state next) :
    OnDevice next fd device where
  openOn := (same.openOn_iff _ _).mpr onDevice.openOn
  device := by
    rw [same.privateData, devfsDeviceOf, same.devfsHandles]
    exact onDevice.device

theorem OnDevice.of_entry
    (onDevice : OnDevice state fd device)
    (entry : next.openFiles fd = state.openFiles fd)
    (kept : devfsDeviceOf (state.openFiles fd).privateData next =
      devfsDeviceOf (state.openFiles fd).privateData state) :
    OnDevice next fd device where
  openOn := by
    rw [VfsState.OpenOn, entry]
    exact onDevice.openOn
  device := by
    rw [entry, kept]
    exact onDevice.device

/-- Opening leaves the handles in use alone. -/
theorem vfsOpen_deviceOf
    {handle : Int}
    (used : devfsDeviceOf handle state ≠ 0)
    (path : Option (List UInt8))
    (flags : Nat) :
    devfsDeviceOf handle (vfsOpen path flags state).2 =
      devfsDeviceOf handle state := by
  rcases vfsOpen_cases path flags state with
    ⟨_, unchanged⟩ | ⟨name, fs, free, _, _, _, _, result⟩
  · rw [unchanged]
  · rw [result]
    change devfsDeviceOf handle (fs.ops.open name flags state).2 = _
    rcases fs.ops.open_effect state name flags with
      same | ⟨_, _, _, _, ramfs⟩ | ⟨_, taken, _, found, devfs⟩
    · rw [same]
    · rw [ramfs]
      rfl
    · obtain ⟨bound, unused⟩ := findDevfsHandle_eq_some found
      rw [devfs, devfsDeviceOf_withDevfsHandle bound, if_neg]
      rintro rfl
      refine used ?_
      rw [devfsDeviceOf, if_neg (by omega), Int.toNat_natCast]
      exact unused

/-- Closing a handle of a file system leaves the other handles alone. -/
theorem FileOperations.close_deviceOf
    {ops : FileOperations} {handle value : Int}
    (used : state.InUse ops handle)
    (different : ops = .devfsOps → value ≠ handle) :
    devfsDeviceOf value (ops.close handle state).2 =
      devfsDeviceOf value state := by
  obtain ⟨low, high⟩ := used.range
  rcases ops.close_effect state handle with
    same | ⟨_, _, ramfs⟩ | ⟨isDevfs, devfs⟩
  · rw [same]
  · rw [ramfs]
    rfl
  · rw [devfs, devfsDeviceOf_withDevfsHandle (by omega), if_neg]
    rw [Int.toNat_of_nonneg low]
    exact different isDevfs

/-- Closing another descriptor leaves the device alone. -/
theorem OnDevice.vfsClose_deviceOf
    (onDevice : OnDevice state fd device)
    (tables : TablesAgree state)
    {other : Int}
    (different : (MatrixOS.vfsClose other state).1 = 0 → fd ≠ other.toNat) :
    devfsDeviceOf (state.openFiles fd).privateData
        (MatrixOS.vfsClose other state).2 =
      devfsDeviceOf (state.openFiles fd).privateData state := by
  rcases tables.vfsClose_cases other with
    refused | ⟨index, fs, rfl, openOn, closed⟩ |
      ⟨index, handle, rfl, _, _, closed⟩
  · rw [refused]
  · rw [closed] at different ⊢
    refine FileOperations.close_deviceOf
      ((tables.handles fs.ops).mapsTo openOn) fun isDevfs same => ?_
    rw [isDevfs] at openOn
    exact different rfl ((tables.handles .devfsOps).injOn onDevice.openOn
      openOn same)
  · rw [closed]
    rfl

/-- The device of a descriptor that has just been opened. -/
theorem vfsOpen_onDevice
    {path : List UInt8} {flags : Nat}
    (invariant : VfsInvariant state)
    (underDev : UnderDev path)
    (isFd : (vfsOpen (some path) flags state).1 = fd) :
    OnDevice (vfsOpen (some path) flags state).2 fd
      (devfsResolveDevice path) := by
  have opened := vfsOpen_openedWith invariant
    (isFd ▸ Int.natCast_nonneg fd : 0 ≤ (vfsOpen (some path) flags state).1)
  rw [isFd, Int.toNat_natCast] at opened
  refine ⟨⟨opened.inTable, opened.used, opened.device underDev⟩, ?_⟩
  rcases vfsOpen_cases (some path) flags state with
    ⟨failed, _⟩ | ⟨name, fs, free, same, resolved, _, done, result⟩
  · omega
  · obtain rfl := Option.some.inj same
    have isDevfs := vfsResolveFs_ops invariant.known resolved
    rw [if_pos underDev] at isDevfs
    rw [result] at isFd ⊢
    obtain rfl := Int.ofNat.inj isFd
    simp only [isDevfs, FileOperations.open, devfsOpen] at done ⊢
    split at done
    · exact absurd done (show ¬ 0 ≤ enoent by decide)
    · rename_i isDevice
      rw [if_neg isDevice]
      split at done
      · exact absurd done (show ¬ 0 ≤ emfile by decide)
      · rename_i handle found
        have bound := (findDevfsHandle_eq_some found).1
        rw [VfsState.withOpenFile_openFiles, Function.update_self]
        change devfsDeviceOf handle (state.withDevfsHandle handle _) = _
        rw [devfsDeviceOf_withDevfsHandle bound, if_pos rfl]

/-- The record tells the device of a descriptor. -/
theorem onDevice_kept :
    RecordKept fun state fd path _ =>
      UnderDev path → OnDevice state fd (devfsResolveDevice path) where
  opened := fun invariant isFd underDev =>
    vfsOpen_onDevice invariant underDev isFd
  perform := by
    intro state fd path flags request invariant right unchanged underDev
    have onDevice := right underDev
    rcases VfsCall.perform_entry unchanged with
      same | ⟨same, ⟨name, mode, rfl⟩ | ⟨other, rfl, different⟩⟩
    · exact onDevice.of_sameTables same
    · refine onDevice.of_entry same (vfsOpen_deviceOf ?_ name mode)
      rw [onDevice.device]
      exact devfsResolveDevice_ne_zero path
    · exact onDevice.of_entry same
        (onDevice.vfsClose_deviceOf invariant.tables different)
  key := fun keyboard right underDev =>
    (right underDev).of_sameTables (.withKeyboard _ keyboard)

end Device

/-! ## Reads of the console -/

/-- The descriptor is open on the console and may be read. -/
structure ReadsConsole (state : VfsState) (fd : Nat) : Prop where
  onDevice : OnDevice state fd deviceConsole
  readable : ¬ ((state.openFiles fd).flags &&& oRdonly = 0 ∧
    (state.openFiles fd).flags &&& oRdwr = 0)

section Reads

variable {state next : VfsState} {fd : Nat}

theorem ReadsConsole.of_sameTables
    (reads : ReadsConsole state fd)
    (same : SameTables state next) :
    ReadsConsole next fd where
  onDevice := reads.onDevice.of_sameTables same
  readable := by
    rw [same.flags]
    exact reads.readable

/-- The state of a read, but for the position of the descriptor. -/
theorem ReadsConsole.vfsRead_eq
    (reads : ReadsConsole state fd)
    (buf count : Nat) :
    vfsRead fd buf count state =
      (toInt (consoleRead buf count 0 state).1,
        advance fd (toInt (consoleRead buf count 0 state).1)
          (consoleRead buf count 0 state).2) := by
  obtain ⟨inTable, used, fs, isFs, isDevfs⟩ := reads.onDevice.openOn
  have good : ¬ BadFd fd state := by
    simp only [BadFd, Int.toNat_natCast]
    omega
  simp only [vfsRead, if_neg good, Int.toNat_natCast, if_neg reads.readable,
    isFs, isDevfs, FileOperations.read, devfsRead, reads.onDevice.device]
  rfl

theorem advance_keyboard (fd : Nat) (result : Int) (state : VfsState) :
    (advance fd result state).keyboard = state.keyboard := by
  rw [advance]
  split <;> rfl

/-- A read returns the longest line and leaves the rest. -/
def ReturnsLine (state : VfsState) (fd : Int) (buf count : Nat) : Prop :=
  ∃ text, IsLongest 10 count state.keyboard.unread text ∧
    (vfsRead fd buf count state).1 = text.length ∧
    Delivered state buf text (vfsRead fd buf count state).2

theorem ReadsConsole.returnsLine
    (reads : ReadsConsole state fd)
    (sound : state.keyboard.Sound)
    (buf : Nat)
    {count : Nat}
    (small : count < 2 ^ 31) :
    ReturnsLine state fd buf count := by
  have isLongest := takeLine_isLongest 10 count state.keyboard.unread
  obtain ⟨result, delivered⟩ := @consoleRead_delivered state buf sound count
    (by omega) 0
  have fits := isLongest.fits
  rw [Nat.zero_add] at result
  refine ⟨_, isLongest, ?_, ?_⟩
  · rw [reads.vfsRead_eq, result, toInt_of_lt (by omega)]
  · rw [reads.vfsRead_eq]
    refine ⟨?_, ?_, ?_⟩
    · rw [advance_mem]
      exact delivered.bytes
    · rw [advance_keyboard]
      exact delivered.rest
    · rw [advance_keyboard]
      exact delivered.sound

/-- Reads of a descriptor, each with a buffer and a count. -/
def readCalls (fd : Int) (requests : List (Nat × Nat)) : List VfsCall :=
  requests.map fun request => .read fd request.1 request.2

/-- The state after a sequence of calls. -/
def performAll (calls : List VfsCall) (state : VfsState) : VfsState :=
  calls.foldl (fun state call => (call.perform state).2) state

/-- What the reads return and what is left make up the queue. -/
theorem ReadsConsole.bytesRead_append_unread
    (reads : ReadsConsole state fd)
    (sound : state.keyboard.Sound)
    {requests : List (Nat × Nat)}
    (small : ∀ request ∈ requests, request.2 < 2 ^ 31) :
    bytesRead fd (readCalls fd requests) state ++
        (performAll (readCalls fd requests) state).keyboard.unread =
      state.keyboard.unread := by
  induction requests generalizing state with
  | nil =>
      rfl
  | cons request requests inductionHypothesis =>
      obtain ⟨buf, count⟩ := request
      obtain ⟨text, _, result, delivered⟩ :=
        reads.returnsLine sound buf (small (buf, count) (by simp))
      have others := inductionHypothesis
        (reads.of_sameTables (vfsRead_sameTables state fd buf count))
        delivered.sound fun other member => small other (by simp [member])
      have first : VfsCall.returnedOn fd state (.read fd buf count) = text := by
        rw [VfsCall.returnedOn, if_pos rfl, result, Int.toNat_natCast]
        exact delivered.bytes
      change (VfsCall.returnedOn fd state (.read fd buf count) ++ _) ++ _ = _
      rw [first, List.append_assoc, delivered.rest]
      exact congrArg _ others

end Reads

/--
A read of a descriptor that was opened on the console returns the longest line
at the beginning of the queue and leaves the rest, and so nothing is lost.
-/
theorem consoleReads
    {modules : List ModuleInfo} {ramfsNode devfsNode : Nat}
    {before : VfsState} {run : VfsRun}
    (reached : VfsReachable
      (bootVfsInit modules ramfsNode devfsNode before) run)
    {fd flags : Nat}
    (opened : run.opened fd = some (cstr "/dev/console", flags))
    (mode : flags = oRdonly ∨ flags = oRdwr)
    {keyboard : Keyboard}
    (sound : keyboard.Sound) :
    (∀ buf count, count < 2 ^ 31 →
      ReturnsLine (run.state.withKeyboard keyboard) fd buf count) ∧
    ∀ requests : List (Nat × Nat), (∀ request ∈ requests, request.2 < 2 ^ 31) →
      bytesRead fd (readCalls fd requests) (run.state.withKeyboard keyboard) ++
          (performAll (readCalls fd requests)
            (run.state.withKeyboard keyboard)).keyboard.unread =
        keyboard.unread := by
  have start := vfsInvariant_bootVfsInit modules ramfsNode devfsNode before
  have onDevice : OnDevice run.state fd deviceConsole :=
    onDevice_kept.reachable start reached fd _ flags opened (by decide)
  have readable : ¬ ((run.state.openFiles fd).flags &&& oRdonly = 0 ∧
      (run.state.openFiles fd).flags &&& oRdwr = 0) := by
    rw [(reached.recordRight start fd _ flags opened).flags_eq]
    rcases mode with rfl | rfl <;> decide
  have reads : ReadsConsole (run.state.withKeyboard keyboard) fd :=
    (ReadsConsole.mk onDevice readable).of_sameTables
      (.withKeyboard run.state keyboard)
  exact ⟨fun buf _ small => reads.returnsLine sound buf small,
    fun _ small => reads.bytesRead_append_unread sound small⟩

/-- Four keys with a newline among them. -/
def demoKeyboard : Keyboard :=
  keyboardInputHandler 0x2E (keyboardInputHandler 0x30
    (keyboardInputHandler 0x1C (keyboardInputHandler 0x1E .bss)))

theorem demoKeyboard_sound : demoKeyboard.Sound :=
  (((Keyboard.bss_sound.keyboardInputHandler _).keyboardInputHandler
    _).keyboardInputHandler _).keyboardInputHandler _

/-- The line is read first, and then one of the two characters behind it. -/
theorem consoleReads_demoKeyboard :
    ∃ state : VfsState, state.keyboard.unread = cstr "a\nbc" ∧
      ReturnsLine state 3 0x2000 16 ∧
      bytesRead 3 (readCalls 3 [(0x2000, 16), (0x2000, 1)]) state ++
        (performAll (readCalls 3 [(0x2000, 16), (0x2000, 1)])
          state).keyboard.unread = cstr "a\nbc" := by
  have reached : VfsReachable (bootVfsInit [] 16 32 .cleared)
      ((VfsCall.open (some (cstr "/dev/console")) oRdonly).run _) :=
    .call _ .init
  have opened : ((VfsCall.open (some (cstr "/dev/console")) oRdonly).run
      ⟨bootVfsInit [] 16 32 .cleared, fun _ => none⟩).opened 3 =
        some (cstr "/dev/console", oRdonly) := rfl
  have reads := consoleReads reached opened (Or.inl rfl) demoKeyboard_sound
  exact ⟨_, by decide, reads.1 0x2000 16 (by decide), reads.2 _ (by decide)⟩

end MatrixOS
