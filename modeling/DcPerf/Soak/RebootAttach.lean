import DcPerf.Library.Protocol
import DcPerf.Soak.SnapService

/-!
# The script `reboot_attach.sh`

The script boots the host from one disk and then from the other, over and over again, with an emulated
disk whose backing device it changes in between. The disk of the second system is attached anew for each
round.
-/

namespace DcPerf.Soak.RebootAttach

open DcPerf.Library

variable (w : TimedHost Command)

/-- `echo text; exit code`; without a code, `exit` uses the status of `echo`. -/
def giveUp (text : String) (code : Option ℕ) : Script Log Unit := do
  let rst ← w.status (.echo text)
  throw { code := code.getD rst, msg := text }

/-- `set_up_sf_if` -/
def setUpSfIf : Script Log Unit := do
  w.call .mlnxSf
  w.call (.sleep 3)
  w.call .ipAddr
  w.call (.sleep 5)

/-! ## Waiting for the host -/

/-- The body of the loop of `wait_for_os_bootup`, after the checks of the clock. -/
def loginOnce (log : Log) : Bool × Log :=
  (lastStatus (w.after (w.after log (.sleep 5)) .sshSleep) == 0,
    w.after (w.after log (.sleep 5)) .sshSleep)

theorem loginOnce_grows (log : Log) : log <+: (loginOnce w log).2 :=
  prefix_after.trans prefix_after

/-- A login that fails was tried after five seconds. -/
theorem loginOnce_lasts (log : Log) : w.clock log + 5 * w.second ≤ w.clock (loginOnce w log).2 := by
  have hsleep : Lasting.atLeast (Command.sleep 5) = 5 := rfl
  simp only [loginOnce, clock_after, hsleep]
  omega

def login : Attempt w where
  go := loginOnce w
  pause := 5
  pause_pos := by decide
  grows := loginOnce_grows w
  lasts log _ := loginOnce_lasts w log

/-- `wait_for_os_bootup`: whether the host has come up. The limit is `-gt 1200`. -/
def waitForOsBootup : Script Log Bool := do
  let startTime ← date w
  modifyGet fun log => (login w).within [.date, .date] 1201 startTime log

/-! ## The disk on the target -/

/-- The command again and again, until its output has a line with `pattern`; `left` is how many attempts
there may be after this one. The result is the last output. -/
def untilListed (c : Command) (pattern text : String) : ℕ → Script Log (List Char)
  | 0 => do
    let output ← w.output c
    onlyIf (grepEcho pattern output = false) (giveUp w text none)
    return output
  | left + 1 => do
    let output ← w.output c
    if grepEcho pattern output = false then untilListed c pattern text left else pure output

/-- `remote_attach_disk` -/
def remoteAttachDisk : Script Log Unit := do
  let _ ← untilListed w .startNewUbuntu27 "nqn.2025-01.baidu.boot:ubuntu27"
    "remote failed to attach ubuntu img" 10
  let rst ← w.status (.bdevNvmeAttachController .nvmeUbuntu)
  onlyIf (rst ≠ 0) (giveUp w "failed to attach ubuntu controller, exit" none)
  w.call (.sleep 5)

/-- `remote_detach_disk` -/
def remoteDetachDisk : Script Log Unit := do
  w.call (.bdevNvmeDetachController .nvmeUbuntu)
  let detachRst ← untilListed w .stopUsedUbuntu27 "nqn.2014-08.org.nvmexpress.discovery"
    "remote failed to detach ubuntu img" 10
  onlyIf (grepEcho "nqn.2025-01.baidu.boot:ubuntu27" detachRst = true)
    (giveUp w "failed to detach ubuntu controller, exit" none)

/-! ## Rounds -/

/-- The wait for one of the two systems, `OSA` or `OSB`. -/
def bootUp (count : ℕ) (os : String) : Script Log Unit := do
  w.call (.echo s!"Waiting for {os} BOOTUP")
  let up ← waitForOsBootup w
  if up = true then
    w.call (.echo s!"count: {count}, {os} bootup")
  else
    giveUp w s!"count: {count}, {os} can't bootup" (some 1)

/-- The emulated disk gets another backing device. -/
def swapBdev (bdev : Bdev) : Script Log Unit := do
  w.call .virtioBlkControllerBdevDetach
  w.call (.virtioBlkControllerBdevAttach bdev)

/-- The body of the loop. -/
def round (count : ℕ) : Script Log Unit := do
  let roundStartTime ← date w
  w.call .virtioBlkControllerBdevDetach
  remoteDetachDisk w
  w.call (.virtioBlkControllerBdevAttach .null)
  w.call .powerReset
  w.call (.sleep 60)
  swapBdev w .nvmeRocky8n1
  w.call .powerReset
  bootUp w count "OSB"
  w.call .sshHalt
  w.call (.sleep 1)
  remoteAttachDisk w
  swapBdev w .null
  swapBdev w .nvmeUbuntun1
  w.call .powerReset
  bootUp w count "OSA"
  let roundEndTime ← date w
  w.call (.echo
    s!"count: {count + 1}, time: {roundEndTime - roundStartTime}, another round of test")

/-- What comes before the loop. -/
def setUp : Script Log Unit := do
  setUpSfIf w
  bootSnapService w
  w.call (.bdevNvmeAttachController .nvmeRocky8)
  w.call .virtioBlkControllerCreate
  remoteAttachDisk w

/-- The script up to the end of `n` rounds; it goes on for as long as it does not exit. -/
def main (n : ℕ) : Script Log Unit := do
  setUp w
  (List.range n).forM (round w)

/-- The commands that have been run by then. -/
def history (n : ℕ) : Log := finalState (main w n [])

end DcPerf.Soak.RebootAttach
