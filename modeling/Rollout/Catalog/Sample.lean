
namespace Rollout.Catalog

def sampleLines : List String :=
  ["# pfsmon install catalog",
   "#",
   "# Steps run in the order listed for each role. Cross-role ordering comes",
   "# only from the [[dependencies]] rules below.",
   "",
   "[retry.push]",
   "max_attempts = 3",
   "initial_backoff_ms = 1000",
   "",
   "[retry.service_start]",
   "max_attempts = 3",
   "initial_backoff_ms = 2000",
   "",
   "[[roles.management.steps]]",
   "name = \"install packages\"",
   "kind = \"command\"",
   "command = \"yum install -y lustre lustre-osd-ldiskfs-mount\"",
   "check = \"rpm -q lustre\"",
   "",
   "[[roles.management.steps]]",
   "name = \"push config\"",
   "kind = \"push\"",
   "local = \"conf/mgs.conf\"",
   "remote = \"/etc/lustre/mgs.conf\"",
   "",
   "[[roles.management.steps]]",
   "name = \"service started\"",
   "kind = \"service_start\"",
   "command = \"systemctl start lustre-mgs\"",
   "check = \"systemctl is-active lustre-mgs\"",
   "",
   "[[roles.management.steps]]",
   "name = \"verify service\"",
   "kind = \"verify\"",
   "command = \"lctl get_param -n mgs.MGS.uuid\"",
   "",
   "[[roles.metadata.steps]]",
   "name = \"install packages\"",
   "kind = \"command\"",
   "command = \"yum install -y lustre lustre-osd-ldiskfs-mount\"",
   "check = \"rpm -q lustre\"",
   "",
   "[[roles.metadata.steps]]",
   "name = \"push config\"",
   "kind = \"push\"",
   "local = \"conf/mdt.conf\"",
   "remote = \"/etc/lustre/mdt.conf\"",
   "",
   "[[roles.metadata.steps]]",
   "name = \"service started\"",
   "kind = \"service_start\"",
   "command = \"systemctl start lustre-mdt\"",
   "",
   "[[roles.metadata.steps]]",
   "name = \"verify service\"",
   "kind = \"verify\"",
   "command = \"lctl dl | grep -q mdt\"",
   "",
   "[[roles.object_storage.steps]]",
   "name = \"install packages\"",
   "kind = \"command\"",
   "command = \"yum install -y lustre lustre-osd-ldiskfs-mount\"",
   "check = \"rpm -q lustre\"",
   "",
   "[[roles.object_storage.steps]]",
   "name = \"push config\"",
   "kind = \"push\"",
   "local = \"conf/ost.conf\"",
   "remote = \"/etc/lustre/ost.conf\"",
   "",
   "[[roles.object_storage.steps]]",
   "name = \"service started\"",
   "kind = \"service_start\"",
   "command = \"systemctl start lustre-ost\"",
   "",
   "[[roles.object_storage.steps]]",
   "name = \"verify service\"",
   "kind = \"verify\"",
   "command = \"lctl dl | grep -q obdfilter\"",
   "",
   "[[roles.client.steps]]",
   "name = \"install packages\"",
   "kind = \"command\"",
   "command = \"yum install -y lustre-client\"",
   "check = \"rpm -q lustre-client\"",
   "",
   "[[roles.client.steps]]",
   "name = \"mount filesystem\"",
   "kind = \"service_start\"",
   "command = \"mount -t lustre mgs01@tcp:/pfs /mnt/pfs\"",
   "check = \"mountpoint -q /mnt/pfs\"",
   "",
   "[[roles.monitor.steps]]",
   "name = \"push agent config\"",
   "kind = \"push\"",
   "local = \"conf/pfsmon-agent.toml\"",
   "remote = \"/etc/pfsmon/pfsmon-agent.toml\"",
   "",
   "[[dependencies]]",
   "role = \"metadata\"",
   "requires_role = \"management\"",
   "requires_step = \"service started\"",
   "",
   "[[dependencies]]",
   "role = \"object_storage\"",
   "requires_role = \"management\"",
   "requires_step = \"service started\"",
   "",
   "[[dependencies]]",
   "role = \"client\"",
   "step = \"mount filesystem\"",
   "requires_role = \"metadata\"",
   "requires_step = \"verify service\"",
   "",
   "[[dependencies]]",
   "role = \"client\"",
   "step = \"mount filesystem\"",
   "requires_role = \"object_storage\"",
   "requires_step = \"verify service\""]

def sample : String := String.join (sampleLines.map fun l ↦ l ++ "\n")

end Rollout.Catalog
