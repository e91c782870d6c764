import Mathlib.Data.List.Destutter

/-!
# The device manager's record of the Wi-Fi network

`DeviceManager::OnWiFiBootstrapStateChanged` (`device_manager.cc`) runs each time the privet Wi-Fi
bootstrap state changes.  It reads the SSID the device is connected to and, when it differs from
the settings' `last_configured_ssid`, opens a `Config::Transaction` that sets it; the transaction
commits the settings when it goes out of scope.  The new bootstrap state itself is not read.

Main result, `onWiFiBootstrapStateChanges_writes`: over any sequence of callbacks, the settings
are committed exactly when the connected SSID changes.  The SSIDs committed are the connected
SSIDs with every repeat of the one before removed (`List.destutter'`), so no commit rewrites the
value already held, and at the end the settings hold the SSID connected last.
-/

namespace Libweave

/-- The settings `OnWiFiBootstrapStateChanged` reads and writes: `last_configured_ssid`. -/
structure Settings where
  lastConfiguredSsid : String
  deriving DecidableEq, Repr

namespace DeviceManager

/-- `OnWiFiBootstrapStateChanged`, given the SSID `GetCurrentlyConnectedSsid` returns: the settings
the transaction commits, when one is opened. -/
def onWiFiBootstrapStateChanged (ssid : String) (settings : Settings) : Option Settings :=
  if ssid ≠ settings.lastConfiguredSsid then
    some { settings with lastConfiguredSsid := ssid }
  else
    none

/-- The callbacks in turn, with the SSID connected at each: the settings at the end, and the
settings committed, in order. -/
def onWiFiBootstrapStateChanges (settings : Settings) : List String → Settings × List Settings
  | [] => (settings, [])
  | ssid :: ssids =>
    match onWiFiBootstrapStateChanged ssid settings with
    | some committed =>
      let rest := onWiFiBootstrapStateChanges committed ssids
      (rest.1, committed :: rest.2)
    | none => onWiFiBootstrapStateChanges settings ssids

@[simp] lemma onWiFiBootstrapStateChanges_nil (settings : Settings) :
    onWiFiBootstrapStateChanges settings [] = (settings, []) := rfl

lemma onWiFiBootstrapStateChanges_cons_same {settings : Settings} {ssids : List String} :
    onWiFiBootstrapStateChanges settings (settings.lastConfiguredSsid :: ssids) =
      onWiFiBootstrapStateChanges settings ssids := by
  simp [onWiFiBootstrapStateChanges, onWiFiBootstrapStateChanged]

lemma onWiFiBootstrapStateChanges_cons_of_ne {settings : Settings} {ssid : String}
    {ssids : List String} (h : ssid ≠ settings.lastConfiguredSsid) :
    onWiFiBootstrapStateChanges settings (ssid :: ssids) =
      ((onWiFiBootstrapStateChanges ⟨ssid⟩ ssids).1,
        ⟨ssid⟩ :: (onWiFiBootstrapStateChanges ⟨ssid⟩ ssids).2) := by
  simp [onWiFiBootstrapStateChanges, onWiFiBootstrapStateChanged, h]

/-- Over any sequence of callbacks, the settings are committed exactly when the connected SSID
changes: the SSIDs held, from the first, are the connected SSIDs with every repeat of the one
before removed; and at the end the settings hold the SSID connected last. -/
theorem onWiFiBootstrapStateChanges_writes (settings : Settings) (ssids : List String) :
    settings.lastConfiguredSsid ::
        (onWiFiBootstrapStateChanges settings ssids).2.map Settings.lastConfiguredSsid =
      ssids.destutter' (· ≠ ·) settings.lastConfiguredSsid ∧
    (onWiFiBootstrapStateChanges settings ssids).1.lastConfiguredSsid =
      (settings.lastConfiguredSsid :: ssids).getLast (List.cons_ne_nil _ _) := by
  induction ssids generalizing settings with
  | nil => simp
  | cons ssid ssids ih =>
    rw [List.getLast_cons_cons]
    by_cases h : ssid = settings.lastConfiguredSsid
    · subst h
      rw [onWiFiBootstrapStateChanges_cons_same, List.destutter'_cons_neg _ (not_not.2 rfl)]
      exact ih settings
    · rw [onWiFiBootstrapStateChanges_cons_of_ne h, List.destutter'_cons_pos _ (Ne.symm h)]
      obtain ⟨hw, hl⟩ := ih ⟨ssid⟩
      exact ⟨by simpa using hw, hl⟩

end DeviceManager

end Libweave
