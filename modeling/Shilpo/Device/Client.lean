import Shilpo.Device.States

/-!
# What the client takes for new

The device client keeps a state of each domain, and takes one that the daemon sends only if it is
newer (`desktop/device/src/client.rs`). A state that comes from the bus gets the generation that the
client had installed when it connected, and not the one of the daemon.
-/

namespace Shilpo.Device

open Domain

universe u

variable {ρ : Type u}

def unavailableState [Inhabited ρ] (domain : DeviceDomain) : DomainState ρ where
  version := .zero
  lifecycle := .unavailable
  payload := .empty domain
  other := default
  error := none

/-- A state after the bus: an error is sent as a text, which is empty where there is none. -/
def stateFromWire (installedGeneration : ℕ) (state : DomainState ρ) : DomainState ρ :=
  { state with
    version := ⟨installedGeneration, state.version.revision⟩,
    error := if state.error.getD "" = "" then none else state.error }

/-- What the client knows of the domains. -/
structure ClientDomains (ρ : Type u) where
  installedOwnerGeneration : ℕ
  domains : DeviceDomain → DomainState ρ
  staleUpdates : ℕ

namespace ClientDomains

variable [DecidableEq ρ] (client : ClientDomains ρ) (domain : DeviceDomain)

/-- A state is taken if its version is newer; one with the same version has to say the same. -/
def updateLocalDomainState (state : DomainState ρ) : ClientDomains ρ :=
  if client.installedOwnerGeneration < state.version.ownerGeneration then
    { client with staleUpdates := client.staleUpdates + 1 }
  else if state.version < (client.domains domain).version then
    { client with staleUpdates := client.staleUpdates + 1 }
  else if state.version = (client.domains domain).version then
    if (client.domains domain).Same state then client
    else { client with staleUpdates := client.staleUpdates + 1 }
  else { client with domains := Function.update client.domains domain state }

end ClientDomains

end Shilpo.Device
