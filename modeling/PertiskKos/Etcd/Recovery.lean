import PertiskKos.Etcd.Heal

/-!
# Recovery after a full reboot

The healer counts the members of its cluster in its own manifest.  The manifest of
the first control plane was written before anyone joined, and no join goes back to
it, so after a reboot that keeps all addresses it still counts one member.
-/

namespace PertiskKos.Etcd

open Strings Runs

section FirstNode

variable {peer : Peer} {prior : Text}

end FirstNode

end PertiskKos.Etcd
